import Tapestry.Proofs.JsonText
import Tapestry.Proofs.ProgramSteps

/-!
# Trees read back from JSON

The reader of trees takes a JSON value apart by the shape that trees are written in: an object whose
first member is the tag `node` or `arg` with the name of a variant, and whose other members are the
parts of that variant, each under its own key and in the order of the declaration. It is the inverse
of `toJson` in both directions, on all trees, also on those that no expression denotes. Together
with the reader of JSON text this makes the text of a tree stand for this tree alone.

Checking a text writes the text of its tree and a line break, which JSON takes for white space.

## Key results

- `Expr.ofJson?_eq_some`, `Arg.ofJson?_eq_some`: a tree is read from exactly its own JSON
- `Expr.ofJsonText?_pretty`, `Arg.ofJsonText?_pretty`: a tree is read back from its text
- `Program.check_eq`: what checking a text leaves
- `toJson_lossless`: texts stand for one tree, and what a check writes is read as the checked tree
-/

namespace Tapestry

/-! ## Reading trees -/

mutual

/-- The expression that a value has the shape of. -/
def Expr.ofJson? : Json → Option Expr
  | .object [("node", .string "command"), ("name", .string name), ("args", .array args)] =>
    (Arg.ofJsonList? args).map (.command name)
  | .object [("node", .string "pipeline"), ("nodes", .array nodes)] =>
    (Expr.ofJsonList? nodes).map .pipeline
  | .object [("node", .string "binary"), ("left", left), ("op", .string symbol),
      ("right", right)] => do
    return .binary (← Expr.ofJson? left) symbol (← Expr.ofJson? right)
  | .object [("node", .string "group"), ("inner", inner)] => (Expr.ofJson? inner).map .group
  | .object [("node", .string "literal"), ("value", .string value)] => some (.literal value)
  | _ => none

/-- The expressions that several values have the shape of. -/
def Expr.ofJsonList? : List Json → Option (List Expr)
  | [] => some []
  | v :: vs => do return (← Expr.ofJson? v) :: (← Expr.ofJsonList? vs)

/-- The argument that a value has the shape of. -/
def Arg.ofJson? : Json → Option Arg
  | .object [("arg", .string "literal"), ("value", .string value)] => some (.literal value)
  | .object [("arg", .string "key_value"), ("key", .string key), ("value", value)] =>
    (Arg.ofJson? value).map (.keyed key)
  | .object [("arg", .string "sub_expression"), ("node", node)] =>
    (Expr.ofJson? node).map .nested
  | _ => none

/-- The arguments that several values have the shape of. -/
def Arg.ofJsonList? : List Json → Option (List Arg)
  | [] => some []
  | v :: vs => do return (← Arg.ofJson? v) :: (← Arg.ofJsonList? vs)

end

mutual

/-- An expression is read back from its JSON. -/
theorem Expr.ofJson?_toJson : ∀ e : Expr, Expr.ofJson? e.toJson = some e
  | .command name args => by
    rw [Expr.toJson, Expr.ofJson?, Arg.ofJsonList?_toJsonList args]
    rfl
  | .pipeline stages => by
    rw [Expr.toJson, Expr.ofJson?, Expr.ofJsonList?_toJsonList stages]
    rfl
  | .binary left symbol right => by
    rw [Expr.toJson, Expr.ofJson?, Expr.ofJson?_toJson left, Expr.ofJson?_toJson right]
    rfl
  | .group inner => by
    rw [Expr.toJson, Expr.ofJson?, Expr.ofJson?_toJson inner]
    rfl
  | .literal value => by rw [Expr.toJson, Expr.ofJson?]

/-- Several expressions are read back from their JSON. -/
theorem Expr.ofJsonList?_toJsonList :
    ∀ es : List Expr, Expr.ofJsonList? (Expr.toJsonList es) = some es
  | [] => rfl
  | e :: es => by
    rw [Expr.toJsonList, Expr.ofJsonList?, Expr.ofJson?_toJson e, Expr.ofJsonList?_toJsonList es]
    rfl

/-- An argument is read back from its JSON. -/
theorem Arg.ofJson?_toJson : ∀ a : Arg, Arg.ofJson? a.toJson = some a
  | .literal value => by rw [Arg.toJson, Arg.ofJson?]
  | .keyed key value => by
    rw [Arg.toJson, Arg.ofJson?, Arg.ofJson?_toJson value]
    rfl
  | .nested e => by
    rw [Arg.toJson, Arg.ofJson?, Expr.ofJson?_toJson e]
    rfl

/-- Several arguments are read back from their JSON. -/
theorem Arg.ofJsonList?_toJsonList :
    ∀ as : List Arg, Arg.ofJsonList? (Arg.toJsonList as) = some as
  | [] => rfl
  | a :: as => by
    rw [Arg.toJsonList, Arg.ofJsonList?, Arg.ofJson?_toJson a, Arg.ofJsonList?_toJsonList as]
    rfl

end

mutual

/-- Nothing but the JSON of an expression is read as this expression. -/
theorem Expr.toJson_of_ofJson? : ∀ {v : Json} {e : Expr}, Expr.ofJson? v = some e → e.toJson = v
  | v, e, h => by
    rw [Expr.ofJson?.eq_def] at h
    -- One shape of value for each constructor, with the fields in the order in which they are
    -- written.
    split at h
    · next name args =>
      obtain ⟨as, has, rfl⟩ := Option.map_eq_some_iff.1 h
      rw [Expr.toJson, Arg.toJsonList_of_ofJsonList? has]
    · next nodes =>
      obtain ⟨es, hes, rfl⟩ := Option.map_eq_some_iff.1 h
      rw [Expr.toJson, Expr.toJsonList_of_ofJsonList? hes]
    · next left symbol right =>
      simp only [Option.bind_eq_bind, Option.bind_eq_some_iff, Option.pure_def,
        Option.some.injEq] at h
      obtain ⟨l, hl, r, hr, rfl⟩ := h
      rw [Expr.toJson, Expr.toJson_of_ofJson? hl, Expr.toJson_of_ofJson? hr]
    · next inner =>
      obtain ⟨i, hi, rfl⟩ := Option.map_eq_some_iff.1 h
      rw [Expr.toJson, Expr.toJson_of_ofJson? hi]
    · next value =>
      cases h
      rw [Expr.toJson]
    · cases h

/-- Nothing but the JSON of several expressions is read as these expressions. -/
theorem Expr.toJsonList_of_ofJsonList? : ∀ {vs : List Json} {es : List Expr},
    Expr.ofJsonList? vs = some es → Expr.toJsonList es = vs
  | [], es, h => by
    cases h
    rfl
  | v :: vs, es, h => by
    simp only [Expr.ofJsonList?, Option.bind_eq_bind, Option.bind_eq_some_iff, Option.pure_def,
      Option.some.injEq] at h
    obtain ⟨e, he, es, hes, rfl⟩ := h
    rw [Expr.toJsonList, Expr.toJson_of_ofJson? he, Expr.toJsonList_of_ofJsonList? hes]

/-- Nothing but the JSON of an argument is read as this argument. -/
theorem Arg.toJson_of_ofJson? : ∀ {v : Json} {a : Arg}, Arg.ofJson? v = some a → a.toJson = v
  | v, a, h => by
    rw [Arg.ofJson?.eq_def] at h
    split at h
    · cases h
      rw [Arg.toJson]
    · next key value =>
      obtain ⟨a', ha, rfl⟩ := Option.map_eq_some_iff.1 h
      rw [Arg.toJson, Arg.toJson_of_ofJson? ha]
    · next node =>
      obtain ⟨e, he, rfl⟩ := Option.map_eq_some_iff.1 h
      rw [Arg.toJson, Expr.toJson_of_ofJson? he]
    · cases h

/-- Nothing but the JSON of several arguments is read as these arguments. -/
theorem Arg.toJsonList_of_ofJsonList? : ∀ {vs : List Json} {as : List Arg},
    Arg.ofJsonList? vs = some as → Arg.toJsonList as = vs
  | [], as, h => by
    cases h
    rfl
  | v :: vs, as, h => by
    simp only [Arg.ofJsonList?, Option.bind_eq_bind, Option.bind_eq_some_iff, Option.pure_def,
      Option.some.injEq] at h
    obtain ⟨a, ha, as, has, rfl⟩ := h
    rw [Arg.toJsonList, Arg.toJson_of_ofJson? ha, Arg.toJsonList_of_ofJsonList? has]

end

/-- A value is read as an expression exactly when it is the JSON of this expression. -/
theorem Expr.ofJson?_eq_some {v : Json} {e : Expr} : Expr.ofJson? v = some e ↔ v = e.toJson :=
  ⟨fun h => (Expr.toJson_of_ofJson? h).symm, fun h => h ▸ Expr.ofJson?_toJson e⟩

/-- A value is read as an argument exactly when it is the JSON of this argument. -/
theorem Arg.ofJson?_eq_some {v : Json} {a : Arg} : Arg.ofJson? v = some a ↔ v = a.toJson :=
  ⟨fun h => (Arg.toJson_of_ofJson? h).symm, fun h => h ▸ Arg.ofJson?_toJson a⟩

/-- Expressions with the same value are the same. -/
theorem Expr.toJson_injective {e e' : Expr} (h : e.toJson = e'.toJson) : e = e' := by
  have hread := Expr.ofJson?_toJson e
  rw [h, Expr.ofJson?_toJson] at hread
  exact (Option.some.inj hread).symm

/-- Arguments with the same value are the same. -/
theorem Arg.toJson_injective {a a' : Arg} (h : a.toJson = a'.toJson) : a = a' := by
  have hread := Arg.ofJson?_toJson a
  rw [h, Arg.ofJson?_toJson] at hread
  exact (Option.some.inj hread).symm

/-- The tag of an argument is not the tag of an expression. -/
private theorem Arg.toJson_ne (a : Arg) (e : Expr) : a.toJson ≠ e.toJson := by
  cases a <;> cases e <;> simp [Arg.toJson, Expr.toJson]

/-! ## Reading the text of a tree -/

/-- The expression that a text is the JSON of. -/
def Expr.ofJsonText? (s : String) : Option Expr := (Json.read? s).bind Expr.ofJson?

/-- The argument that a text is the JSON of. -/
def Arg.ofJsonText? (s : String) : Option Arg := (Json.read? s).bind Arg.ofJson?

/-- An expression is read back from its text. -/
theorem Expr.ofJsonText?_pretty (e : Expr) : Expr.ofJsonText? e.toJson.pretty = some e := by
  rw [Expr.ofJsonText?, Json.read?_pretty, Option.bind_some, Expr.ofJson?_toJson]

/-- So is an argument. -/
theorem Arg.ofJsonText?_pretty (a : Arg) : Arg.ofJsonText? a.toJson.pretty = some a := by
  rw [Arg.ofJsonText?, Json.read?_pretty, Option.bind_some, Arg.ofJson?_toJson]

/-- A line break behind the text of an expression does not count. -/
private theorem Expr.ofJsonText?_line (e : Expr) :
    Expr.ofJsonText? (e.toJson.pretty ++ "\n") = some e := by
  have hread := Json.read?_write [] ['\n'] nofun (List.forall_mem_singleton.2 rfl) e.toJson
  rw [List.nil_append, String.ofList_append] at hread
  exact (congrArg (Option.bind · Expr.ofJson?) hread).trans (Expr.ofJson?_toJson e)

/-- Nothing is read from an empty text. -/
private theorem Expr.ofJsonText?_empty : Expr.ofJsonText? "" = none := by
  rw [Expr.ofJsonText?, Json.read?, Json.readValue]
  rfl

/-! ## Checking a text -/

namespace Program

/-- What is shown of the unknown commands of an expression. -/
def verdict (terminal : Terminal) : List String → List Notice
  | [] =>
    [.line (terminal.line .status "Checked" (terminal.paint .dim "expression is well formed"))]
  | names => names.map fun name => .line (terminal.line .warning "Unknown" s!"command '{name}'")

/-- Showing one line after the other adds these lines to the notices. -/
private theorem forM_say_eq (terminal : Terminal) (tone : Tone) (verb : String)
    (message : String → String) (names : List String) (t : Transcript) :
    names.forM (m := ProgramM) (fun name => say terminal tone verb (message name)) t =
      .ok () { t with
        notices := t.notices ++
          names.map fun name => .line (terminal.line tone verb (message name)) } := by
  induction names generalizing t with
  | nil => simp [List.forM, pure, EStateM.pure]
  | cons name names ih =>
    refine (bind_ok (notify_eq t _) _).trans ((ih _).trans ?_)
    rw [List.map_cons, List.append_assoc, List.singleton_append]

/-- Checking a text writes its tree and shows which of its commands are unknown. -/
theorem check_eq (terminal : Terminal) (text : String) (json : Bool) (t : Transcript) :
    check terminal text json t =
      match parse text with
      | .error e => .error (.parse e) t
      | .ok e =>
        .ok () { t with
          output := t.output ++ ((if json then e.toJson.pretty else e.render) ++ "\n")
          notices := t.notices ++ verdict terminal (unknownCommands .builtins e) } := by
  cases hparse : parse text with
  | error e =>
    rw [check, hparse]
    exact bind_error (ofExcept_error t _) _
  | ok e =>
    rw [check, hparse]
    refine (bind_ok (ofExcept_ok t e) _).trans ((bind_ok (print_eq t _) _).trans ?_)
    dsimp only
    -- One notice when no name is unknown, and otherwise one for each of them.
    generalize unknownCommands .builtins e = names
    cases names with
    | nil => exact notify_eq _ _
    | cons name names => exact forM_say_eq terminal .warning "Unknown" _ (name :: names) _

/-- A check with JSON writes the text of the tree and a line break, or nothing when the text does
    not denote an expression. -/
theorem output_run_check (terminal : Terminal) (input : List Answer) (files : Workspace)
    (text : String) :
    (run terminal input files (.check text true)).2.output =
      (parse text).toOption.elim "" (·.toJson.pretty ++ "\n") := by
  rw [run, perform, check_eq]
  cases parse text with
  | error e => rfl
  | ok e => exact String.empty_append

end Program

/-- The JSON of trees is lossless: an expression and an argument are read back from their text, so
    that two trees have the same text only when they are the same. The text that a check writes
    with a line break behind it is the one of the tree it checked, and is read as this tree. -/
theorem toJson_lossless :
    (∀ e : Expr, Expr.ofJsonText? e.toJson.pretty = some e) ∧
      (∀ a : Arg, Arg.ofJsonText? a.toJson.pretty = some a) ∧
      (∀ e e' : Expr, e.toJson.pretty = e'.toJson.pretty ↔ e = e') ∧
      (∀ a a' : Arg, a.toJson.pretty = a'.toJson.pretty ↔ a = a') ∧
      (∀ (a : Arg) (e : Expr), a.toJson.pretty ≠ e.toJson.pretty) ∧
      ∀ (terminal : Terminal) (input : List Program.Answer) (files : Workspace) (text : String),
        (Program.run terminal input files (.check text true)).2.output =
            (parse text).toOption.elim "" (·.toJson.pretty ++ "\n") ∧
          Expr.ofJsonText? (Program.run terminal input files (.check text true)).2.output =
            (parse text).toOption := by
  refine ⟨Expr.ofJsonText?_pretty, Arg.ofJsonText?_pretty, fun e e' => ?_, fun a a' => ?_,
    fun a e heq => ?_, fun terminal input files text => ?_⟩
  · exact ⟨fun h => Expr.toJson_injective (Json.pretty_injective h),
      congrArg fun e : Expr => e.toJson.pretty⟩
  · exact ⟨fun h => Arg.toJson_injective (Json.pretty_injective h),
      congrArg fun a : Arg => a.toJson.pretty⟩
  · exact a.toJson_ne e (Json.pretty_injective heq)
  · have houtput := Program.output_run_check terminal input files text
    refine ⟨houtput, ?_⟩
    rw [houtput]
    cases parse text with
    | error e => exact Expr.ofJsonText?_empty
    | ok e => exact e.ofJsonText?_line

/-- A tree that no expression denotes is written like any other. -/
example :
    (Expr.pipeline [.command "a\"b" []]).toJson.pretty =
      "\x7b\n  \"node\": \"pipeline\",\n  \"nodes\": [\n    \x7b\n      \"node\": \"command\",\n" ++
        "      \"name\": \"a\\\"b\",\n      \"args\": []\n    \x7d\n  ]\n\x7d" := by
  decide +kernel

end Tapestry
