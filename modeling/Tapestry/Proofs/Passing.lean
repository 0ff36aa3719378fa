import Tapestry.Command
import Tapestry.Proofs.Alike
import Tapestry.Proofs.Visits
import Tapestry.Proofs.WellFormed

/-!
# What a handler gets for its arguments

A command calls its handler with one text for each of its arguments. A literal is passed as it is,
an expression as the handle of its image, and a keyword as its key, an equals sign and what its
value is passed as (`Passed`). The handles are made one after the other while the arguments are
evaluated, and inside of these there may be others, but none of them is bound again: when the
handler is called, each still has the image that was made for it.

The handler splits the texts again. Since a key is a word, the text of a keyword is cut behind its
key, whatever its value is. Only a literal that stands alone could be taken for a keyword, if there
is an equals sign in it.

## Key results

- `Trace.extends`: the handles of a context keep their images
- `Arg.listPasses_of_resolveList`: what the texts of arguments stand for
- `keyword?_ofList`, `positional?_ofList`: what an argument list finds among them
- `evaluate_passes_arguments`: every handler of a command gets its arguments
-/

namespace Tapestry

/-! ## Handles that stay -/

section Handles

variable {registry : Registry} {c c' : Context}

/-- No step takes a handle out of the table or gives it another image. -/
theorem Step.extends {event : Event} (h : Step registry c event c') :
    c.handles.Extends c'.handles := by
  cases h with
  | registered image => exact c.handles.extends_register image
  | returned | failed | refused => exact .refl _

/-- Whatever happens to a context, its handles keep their images. -/
theorem Trace.extends {events : List Event} (h : Trace registry c events c') :
    c.handles.Extends c'.handles := by
  induction h with
  | nil => exact .refl _
  | cons h _ ih => exact h.extends.trans ih

/-- A new handle has its image in every later table. -/
theorem HandleTable.Extends.resolve_register {t u : HandleTable} {image : Image}
    (h : (t.register image).2.Extends u) : u.resolve (handleName t.counter) = .ok image := by
  apply HandleTable.resolve_handleName
  have hnew : t.counter < (t.register image).2.counter := Nat.lt_succ_self _
  rw [h.lookup_eq _ hnew, HandleTable.lookup_register, if_pos rfl]

end Handles

/-! ## Texts of arguments -/

/-- What an argument is passed as: its value, behind a key if it is a keyword. -/
structure Passed where
  key : Option String
  value : String
  deriving DecidableEq

namespace Passed

/-- The text that a handler gets. -/
def text (p : Passed) : String :=
  match p.key with
  | none => p.value
  | some key => key ++ "=" ++ p.value

/-- Whether the text can be split into the key and the value again. -/
def Separable (p : Passed) : Prop :=
  match p.key with
  | none => '=' ∉ p.value.toList
  | some key => key.toList ≠ [] ∧ '=' ∉ key.toList

/-- A separable text is read as a keyword exactly when it has a key. -/
private theorem Separable.keywordOf?_text {p : Passed} (h : p.Separable) :
    keywordOf? p.text = p.key.map (·, p.value) := by
  obtain ⟨key, value⟩ := p
  cases key with
  | none =>
    have hvalue : '=' ∉ value.toList := h
    rw [text, keywordOf?, splitOnce_of_not_mem hvalue]
    rfl
  | some key =>
    obtain ⟨hne, hkey⟩ : key.toList ≠ [] ∧ '=' ∉ key.toList := h
    rw [text, keywordOf?_keyed, splitOnce_of_not_mem hkey]
    exact if_neg hne

section ArgumentList

variable {passed : List Passed} (h : ∀ p ∈ passed, p.Separable)
include h

/-- The positional arguments are the values without a key. -/
private theorem positional_ofList :
    (Arguments.ofList (passed.map text)).positional =
      (passed.filter (·.key.isNone)).map value := by
  have hpositional : ∀ p ∈ passed, (keywordOf? p.text).isNone = p.key.isNone := by
    intro p hp
    rw [(h p hp).keywordOf?_text, Option.isNone_map]
  have htext : ∀ p ∈ passed.filter (·.key.isNone), p.text = p.value := by
    intro p hp
    have hnone : p.key = none := Option.isNone_iff_eq_none.1 (List.mem_filter.1 hp).2
    rw [text, hnone]
  -- The words that no keyword reads are those of the arguments that have no key.
  calc (passed.map text).filter fun s => (keywordOf? s).isNone
    _ = (passed.filter fun p => (keywordOf? p.text).isNone).map text := List.filter_map ..
    _ = (passed.filter (·.key.isNone)).map text := by rw [List.filter_congr hpositional]
    _ = (passed.filter (·.key.isNone)).map value := List.map_congr_left htext

/-- The keywords are the values with a key. -/
private theorem keywords_ofList :
    (Arguments.ofList (passed.map text)).keywords =
      passed.filterMap fun p => p.key.map (·, p.value) := by
  rw [Arguments.ofList, List.filterMap_map]
  exact List.filterMap_congr fun p hp => (h p hp).keywordOf?_text

/-- A positional argument is the value in its place among those without a key. -/
theorem positional?_ofList (i : Nat) :
    (Arguments.ofList (passed.map text)).positional? i =
      ((passed.filter (·.key.isNone)).map value)[i]? := by
  rw [Arguments.positional?, positional_ofList h]

omit h in
/-- Looking a key up finds the first value with this key. -/
private theorem lookup_filterMap (key : String) :
    (passed.filterMap fun p => p.key.map (·, p.value)).lookup key =
      (passed.find? (·.key = some key)).map value := by
  induction passed with
  | nil => rfl
  | cons p passed ih =>
    obtain ⟨k, v⟩ := p
    cases k with
    | none => simpa using ih
    | some k =>
      by_cases hk : key = k
      · simp [hk]
      · have hk' : k ≠ key := Ne.symm hk
        simpa [List.lookup_cons, beq_false_of_ne hk, hk'] using ih

/-- The value of a keyword is the last one with this key. -/
theorem keyword?_ofList (key : String) :
    (Arguments.ofList (passed.map text)).keyword? key =
      (passed.reverse.find? (·.key = some key)).map value := by
  rw [Arguments.keyword?, keywords_ofList h, ← List.filterMap_reverse, lookup_filterMap]

end ArgumentList

end Passed

/-! ## Arguments and what they are passed as -/

section Passing

variable (registry : Registry) (input : Option Image) (handed : HandleTable)

/-- What an argument is passed as, when it is evaluated in one context, which leads to another, and
    the handler gets a table of handles: a literal as itself, and an expression as the handle of the
    image that it gives on the input, which the handler finds. -/
inductive Arg.Passes : Arg → Context → Passed → Context → Prop
  | literal {value c} : Passes (.literal value) c ⟨none, value⟩ c
  | nested {e c image d} (h : e.evaluate registry input c = .ok image d)
      (hhandle : handed.resolve (handleName d.handles.counter) = .ok image) :
    Passes (.nested e) c ⟨none, handleName d.handles.counter⟩
      { d with handles := (d.handles.register image).2 }
  | keyedLiteral {key value c} : Passes (.keyed key (.literal value)) c ⟨some key, value⟩ c
  | keyedNested {key e c image d} (h : e.evaluate registry input c = .ok image d)
      (hhandle : handed.resolve (handleName d.handles.counter) = .ok image)
      (htext : handed.resolve (key ++ "=" ++ handleName d.handles.counter) = .ok image) :
    Passes (.keyed key (.nested e)) c ⟨some key, handleName d.handles.counter⟩
      { d with handles := (d.handles.register image).2 }

/-- The same for arguments from left to right, one text for each. -/
inductive Arg.ListPasses : List Arg → Context → List Passed → Context → Prop
  | nil {c} : ListPasses [] c [] c
  | cons {a as c p c' ps d} (h : Arg.Passes registry input handed a c p c')
      (h' : ListPasses as c' ps d) : ListPasses (a :: as) c (p :: ps) d

variable {registry input handed} {a : Arg} {as : List Arg} {e : Expr} {c d : Context}

/-- There is a character in a word, and none is an equals sign. -/
private theorem equals_not_mem_of_isWord {s : String} (h : IsWord s) :
    s.toList ≠ [] ∧ '=' ∉ s.toList := by
  obtain ⟨x, cs, hs, hx, htail⟩ := isWord_iff.1 h
  rw [hs]
  refine ⟨List.cons_ne_nil x cs, fun hmem => ?_⟩
  rcases List.mem_cons.1 hmem with rfl | hmem
  · exact absurd hx (by decide)
  · have hchar := mem_wordTail (htail.symm ▸ hmem)
    exact absurd hchar (by decide)

/-- What stands behind a key is found as if it stood alone. -/
theorem HandleTable.resolve_keyed {t : HandleTable} {key : String} (hkey : '=' ∉ key.toList)
    (n : Nat) : t.resolve (key ++ "=" ++ handleName n) = t.resolve (handleName n) := by
  have hof : handleOf (key ++ "=" ++ handleName n) = handleOf (handleName n) := by
    have htext : (key ++ "=" ++ handleName n).toList =
        key.toList ++ '=' :: (handleName n).toList := by simp
    rw [handleOf, handleOf, splitOnce_handleName, htext,
      splitOnce_append (p := (· == '=')) rfl, splitOnce_of_not_mem hkey]
    exact String.ofList_toList
  rw [resolve, resolve, hof]

/-- An expression in an argument is passed as a new handle, which has its image in every table that
    keeps the handles. -/
private theorem Arg.exists_of_resolve_nested {text : String}
    (h : (Arg.nested e).resolve registry input c = .ok text d)
    (hext : d.handles.Extends handed) :
    ∃ image c', e.evaluate registry input c = .ok image c' ∧
      text = handleName c'.handles.counter ∧
      d = { c' with handles := (c'.handles.register image).2 } ∧
      handed.resolve (handleName c'.handles.counter) = .ok image := by
  rw [Arg.resolve] at h
  obtain ⟨image, c', he, hregister⟩ := exists_of_bind_ok h
  cases hregister
  exact ⟨image, c', he, rfl, rfl, hext.resolve_register⟩

/-- The text of an argument is what it is passed as. -/
private theorem Arg.passes_of_resolve (ha : a.WellFormed) {text : String}
    (h : a.resolve registry input c = .ok text d) (hext : d.handles.Extends handed) :
    ∃ p, p.text = text ∧ Arg.Passes registry input handed a c p d := by
  cases a with
  | literal value =>
    rw [Arg.resolve] at h
    cases h
    exact ⟨⟨none, _⟩, rfl, .literal⟩
  -- The handle that was registered for the value still stands for it in the larger table.
  | nested e =>
    obtain ⟨image, c', he, rfl, rfl, hhandle⟩ := Arg.exists_of_resolve_nested h hext
    exact ⟨⟨none, _⟩, rfl, .nested he hhandle⟩
  | keyed key value =>
    obtain ⟨hkey, hplain, -⟩ := ha
    rw [Arg.resolve] at h
    obtain ⟨valueText, c', hvalue, htext⟩ := exists_of_bind_ok h
    cases htext
    cases value with
    -- The value of a keyword is a text or an expression, and no keyword again.
    | literal value =>
      rw [Arg.resolve] at hvalue
      cases hvalue
      exact ⟨⟨some key, _⟩, rfl, .keyedLiteral⟩
    | nested e =>
      obtain ⟨image, c', he, rfl, rfl, hhandle⟩ := Arg.exists_of_resolve_nested hvalue hext
      have hkeyed := HandleTable.resolve_keyed (t := handed)
        (equals_not_mem_of_isWord hkey).2 c'.handles.counter
      exact ⟨⟨some key, _⟩, rfl, .keyedNested he hhandle (hkeyed.trans hhandle)⟩
    | keyed => exact nomatch hplain

/-- The texts of arguments are what they are passed as. The handles that later ones make do not
    disturb those of earlier ones. -/
theorem Arg.listPasses_of_resolveList (has : Arg.ListWellFormed as) {texts : List String}
    (h : Arg.resolveList registry as input c = .ok texts d) (hext : d.handles.Extends handed) :
    ∃ passed, passed.map Passed.text = texts ∧
      Arg.ListPasses registry input handed as c passed d := by
  induction as generalizing c texts with
  | nil =>
    rw [Arg.resolveList] at h
    cases h
    exact ⟨[], rfl, .nil⟩
  | cons a as ih =>
    obtain ⟨ha, has⟩ := has
    rw [Arg.resolveList] at h
    obtain ⟨text, c', hfirst, hrest⟩ := exists_of_bind_ok h
    obtain ⟨more, d', hmore, hcons⟩ := exists_of_bind_ok hrest
    cases hcons
    -- What the later arguments register only adds to the table that the first one left.
    obtain ⟨events, htrace, -⟩ := (Arg.listPerforms registry as input).ok hmore
    obtain ⟨p, rfl, hp⟩ := Arg.passes_of_resolve ha hfirst (htrace.extends.trans hext)
    obtain ⟨passed, rfl, hpassed⟩ := ih has hmore
    exact ⟨p :: passed, rfl, .cons hp hpassed⟩

/-- The text of an argument can be split again when it is no literal with an equals sign. -/
private theorem Arg.Passes.separable {p : Passed} (h : Arg.Passes registry input handed a c p d)
    (ha : a.WellFormed) (hliteral : ∀ v, a = .literal v → '=' ∉ v.toList) : p.Separable := by
  cases h with
  | literal => exact hliteral _ rfl
  | nested => exact equals_not_mem_of_isHandle (isHandle_handleName _)
  | keyedLiteral | keyedNested => exact equals_not_mem_of_isWord ha.1

/-- Handed texts can be told apart when no literal among the arguments has an equals sign. -/
private theorem Arg.ListPasses.separable {passed : List Passed}
    (h : Arg.ListPasses registry input handed as c passed d) (has : Arg.ListWellFormed as)
    (hliteral : ∀ v, .literal v ∈ as → '=' ∉ v.toList) : ∀ p ∈ passed, p.Separable := by
  induction h with
  | nil => exact nofun
  | cons hp _ ih =>
    obtain ⟨ha, has⟩ := has
    refine List.forall_mem_cons.2 ⟨hp.separable ha ?_, ih has ?_⟩
    · rintro v rfl
      exact hliteral v List.mem_cons_self
    · exact fun v hv => hliteral v (List.mem_cons_of_mem _ hv)

end Passing

/-! ## Visits of well-formed expressions -/

/-- The expression in a well-formed argument is well-formed. -/
theorem Arg.WellFormed.inner : ∀ {a : Arg}, a.WellFormed → ∀ {e : Expr}, a.inner? = some e →
    e.WellFormed
  | .literal _, _, _, h => nomatch h
  | .keyed _ value, ⟨_, _, hvalue⟩, _, h => Arg.WellFormed.inner (a := value) hvalue h
  | .nested _, he, _, rfl => he

namespace Visit

variable {registry : Registry} {v w : Visit}

/-- A well-formed expression only leads to visits of well-formed expressions. -/
theorem Child.wellFormed (h : Child registry v w) (hv : v.expr.WellFormed) :
    w.expr.WellFormed := by
  cases h with
  | group => exact hv
  | left => exact hv.2.1
  | right => exact hv.2.2
  | first => exact Expr.listWellFormed_iff.1 hv.2.2 _ List.mem_cons_self
  | later => exact Expr.listWellFormed_iff.1 hv.2.2 _ (by simp)
  | argument _ _ ha => exact (Arg.listWellFormed_iff.1 hv.2 _ (by simp)).inner ha

/-- What is reached from a well-formed expression is well-formed. -/
theorem Reaches.wellFormed (h : Reaches registry v w) (hv : v.expr.WellFormed) :
    w.expr.WellFormed := by
  induction h with
  | refl => exact hv
  | tail _ hchild ih => exact hchild.wellFormed ih

end Visit

/-- Every call of a handler, while a well-formed expression is evaluated, is made by a visit that
    the evaluation leads to. A command that is visited and whose arguments all have texts calls its
    handler on its own input, with one text for each argument and with a table in which each handle
    among them has the image that its expression gave on this input. If no literal argument has an
    equals sign, an argument list finds the last value of every key, whatever is in it, and the
    other values by their places. -/
theorem evaluate_passes_arguments {e : Expr} (he : e.WellFormed) (registry : Registry)
    (seed : Option Image) (c : Context) :
    CallTrace registry (Visit.CallsBy registry ⟨e, seed, c⟩) c
        (contextAfter (e.evaluate registry seed) c) ∧
      ∀ name args input start d call,
        Visit.Reaches registry ⟨e, seed, c⟩ ⟨.command name args, input, start⟩ →
        Visit.Makes registry ⟨.command name args, input, start⟩ d call →
        (∃ handler, registry.get? name = some handler ∧
          (Expr.command name args).evaluate registry input start =
            invoke name handler call.args input d) ∧
        ∃ passed, call = ⟨name, passed.map Passed.text, input⟩ ∧
          Arg.ListPasses registry input d.handles args start passed d ∧
          ((∀ v, .literal v ∈ args → '=' ∉ v.toList) →
            (∀ key, (Arguments.ofList call.args).keyword? key =
              (passed.reverse.find? (·.key = some key)).map Passed.value) ∧
            ∀ i, (Arguments.ofList call.args).positional? i =
              ((passed.filter (·.key.isNone)).map Passed.value)[i]?) := by
  refine ⟨e.callsBy registry seed c, ?_⟩
  intro name args input start d call hreaches hmakes
  have hargs : Arg.ListWellFormed args := (hreaches.wellFormed he).2
  obtain ⟨handler, hget, hevaluate⟩ := hmakes.evaluate_eq
  cases hmakes with
  | command hname hresolve =>
    -- The table that the handler gets is the one behind the last argument.
    obtain ⟨passed, rfl, hpasses⟩ := Arg.listPasses_of_resolveList hargs hresolve (.refl _)
    refine ⟨⟨handler, hget, hevaluate⟩, passed, rfl, hpasses, fun hliteral => ?_⟩
    have hseparable := hpasses.separable hargs hliteral
    exact ⟨Passed.keyword?_ofList hseparable, Passed.positional?_ofList hseparable⟩

/-- A command with a literal, and with an expression as the value of a keyword. -/
theorem evaluate_passes_arguments_keyword :
    (Expr.command "f" [.literal "a", .keyed "k" (.nested (.literal "g"))]).WellFormed ∧
      ∃ d, Visit.Makes ((Registry.empty.insert "f" Command.passOn).insert "g" Command.passOn)
          ⟨.command "f" [.literal "a", .keyed "k" (.nested (.literal "g"))], some (.blank 1 1),
            .fresh ⟨[], []⟩⟩ d ⟨"f", ["a", "k=@img:0"], some (.blank 1 1)⟩ ∧
        ∃ passed : List Passed, passed.map Passed.text = ["a", "k=@img:0"] ∧
          (Arguments.ofList ["a", "k=@img:0"]).keyword? "k" =
            (passed.reverse.find? (·.key = some "k")).map Passed.value := by
  have hwords : IsWord "f" ∧ IsWord "k" := by decide +kernel
  have hwf : (Expr.command "f" [.literal "a", .keyed "k" (.nested (.literal "g"))]).WellFormed :=
    ⟨hwords.1, trivial, ⟨hwords.2, rfl, trivial⟩, trivial⟩
  have hmakes := @Visit.Makes.command
    ((Registry.empty.insert "f" Command.passOn).insert "g" Command.passOn) "f"
    [.literal "a", .keyed "k" (.nested (.literal "g"))] (some (.blank 1 1)) (.fresh ⟨[], []⟩)
    ["a", "k=@img:0"] _ rfl rfl
  obtain ⟨-, passed, hcall, -, hfinds⟩ :=
    (evaluate_passes_arguments hwf _ _ _).2 _ _ _ _ _ _ .refl hmakes
  have hplain : ∀ v, .literal v ∈ [Arg.literal "a", .keyed "k" (.nested (.literal "g"))] →
      '=' ∉ v.toList := by simp
  exact ⟨hwf, _, hmakes, passed, (congrArg Invocation.args hcall).symm, (hfinds hplain).1 "k"⟩

end Tapestry
