import Tapestry.Proofs.Spelling
import Tapestry.Proofs.WellFormed

/-!
# Which expressions can be written

Not every well-formed expression is denoted by a text. An operand that is held together more loosely
than its operator needs parentheses, and those make it a group. An expression whose operands need
none is layered (`Expr.Layered`). The grammar gives tokens only layered expressions, and a layered
well-formed expression is denoted by the tokens that are its leaves in order (`Expr.forms`), so that
writing these down gives a text for it.

## Key results

- `Grammar.Phrase.layered`: what the grammar gives tokens is layered
- `Expr.derivedFrom_of_forms`: the leaves of an expression denote it
- `exists_parse_eq_ok_iff`: the expressions that texts denote
-/

namespace Tapestry

/-! ## Layers -/

/-- How tightly an expression is held together: a pipeline least of all, then the operators by their
    level, and everything else most. -/
def Expr.tightness : Expr → Nat
  | pipeline _ => 0
  | binary _ s _ => (Operator.ofSymbol? s).elim 0 Connective.levelOf
  | command _ _ | group _ | literal _ => 4

mutual

/-- Whether all operands of infix operators can stand without parentheses, at every depth: the left
    one when it is held together as tightly as by the operator itself or more, the right one when
    it is held together more tightly. A pipeline is looser than every operator, so no operand is
    one. -/
def Expr.Layered : Expr → Prop
  | .command _ args => Arg.ListLayered args
  | .pipeline stages => Expr.ListLayered stages
  | .binary l s r =>
    ((Expr.binary l s r).tightness ≤ l.tightness ∧ l.Layered) ∧
      ((Expr.binary l s r).tightness < r.tightness ∧ r.Layered)
  | .group e => e.Layered
  | .literal _ => True

def Expr.ListLayered : List Expr → Prop
  | [] => True
  | e :: es => e.Layered ∧ Expr.ListLayered es

def Arg.Layered : Arg → Prop
  | .literal _ => True
  | .keyed _ value => value.Layered
  | .nested e => e.Layered

def Arg.ListLayered : List Arg → Prop
  | [] => True
  | a :: as => a.Layered ∧ Arg.ListLayered as

end

/-- A list is layered when its members are. -/
theorem Expr.listLayered_iff {es : List Expr} : Expr.ListLayered es ↔ ∀ e ∈ es, e.Layered := by
  induction es with
  | nil => exact ⟨fun _ _ h => (nomatch h), fun _ => trivial⟩
  | cons e es ih => rw [Expr.ListLayered, ih, List.forall_mem_cons]

/-- An infix operator holds its operands together by its level. -/
private theorem Expr.tightness_binary (l r : Expr) (o : Operator) :
    (Expr.binary l o.symbol r).tightness = Connective.levelOf o := by
  rw [Expr.tightness, Operator.ofSymbol?_symbol, Option.elim]

namespace Grammar

/-! ## The grammar gives layers -/

/-- An expression that a connective of an operator level makes is as tight as the level. -/
private theorem tightness_binary_of_mem {lv : Level} (hlv : lv ≠ .pipe) {k : Connective}
    (hk : k ∈ lv.connectives) (l r : Expr) :
    (Expr.binary l k.symbol r).tightness = lv.index := by
  obtain ⟨o, rfl⟩ := Level.exists_operator hlv hk
  rw [Connective.symbol, Expr.tightness_binary]
  exact Level.mem_connectives.1 hk

/-- Joining operands from the left gives layers. -/
private theorem layered_foldl_binary {lv : Level} (hlv : lv ≠ .pipe) {left : Expr}
    {more : List (Connective × Expr)} (hl : left.Layered ∧ lv.index ≤ left.tightness)
    (hk : ∀ x ∈ more, x.1 ∈ lv.connectives)
    (hm : ∀ x ∈ more, x.2.Layered ∧ lv.index < x.2.tightness) :
    (more.foldl (fun left (k, right) => .binary left k.symbol right) left).Layered ∧
      lv.index ≤
        (more.foldl (fun left (k, right) => .binary left k.symbol right) left).tightness := by
  induction more generalizing left with
  | nil => exact hl
  | cons x more ih =>
    -- What is joined so far becomes the left operand of the next one, at the very level of the
    -- list.
    obtain ⟨hx, hx'⟩ := hm x List.mem_cons_self
    have ht : (Expr.binary left x.1.symbol x.2).tightness = lv.index :=
      tightness_binary_of_mem hlv (hk x List.mem_cons_self) left x.2
    have hjoined : (Expr.binary left x.1.symbol x.2).Layered := by
      rw [Expr.Layered, ht]
      exact ⟨⟨hl.2, hl.1⟩, hx', hx⟩
    exact ih ⟨hjoined, Nat.le_of_eq ht.symm⟩ (fun y hy => hk y (List.mem_cons_of_mem _ hy))
      fun y hy => hm y (List.mem_cons_of_mem _ hy)

/-- The tree of layered operands that are tighter than their level is layered, and as tight as the
    level. -/
private theorem OperandList.layered_build {lv : Level} {ts : List Token} {first : Expr}
    {more : List (Connective × Expr)} (h : OperandList lv ts first more)
    (hf : first.Layered ∧ lv.index < first.tightness)
    (hm : ∀ x ∈ more, x.2.Layered ∧ lv.index < x.2.tightness) :
    (lv.build first more).Layered ∧ lv.index ≤ (lv.build first more).tightness := by
  have hk : ∀ x ∈ more, x.1 ∈ lv.connectives := fun x hx => (h.mem.2 x hx).1
  have hfold := fun hlv : lv ≠ .pipe =>
    layered_foldl_binary hlv ⟨hf.1, Nat.le_of_lt hf.2⟩ hk hm
  cases more with
  | nil => cases lv <;> exact ⟨hf.1, Nat.le_of_lt hf.2⟩
  | cons x more =>
    cases lv with
    | pipe =>
      -- The stages of a pipeline may be as loose as they like; only below the other levels does
      -- each operand have to be tighter.
      refine ⟨Expr.listLayered_iff.2 ?_, Nat.zero_le _⟩
      intro e he
      rcases List.mem_cons.1 he with rfl | he
      · exact hf.1
      · obtain ⟨y, hy, rfl⟩ := List.mem_map.1 he
        exact (hm y hy).1
    | xor => exact hfold (by decide)
    | sum => exact hfold (by decide)
    | product => exact hfold (by decide)

mutual

/-- What the grammar gives tokens at a level is layered, and as tight as the level. -/
theorem Phrase.layered {lv : Level} {ts : List Token} {e : Expr} :
    Phrase lv ts e → e.Layered ∧ lv.index ≤ e.tightness
  | .build h => h.layered_build h.layered.1 h.layered.2

/-- Operands are layered, and each of them is tighter than the level they stand at. -/
theorem OperandList.layered {lv : Level} {ts : List Token} {first : Expr}
    {more : List (Connective × Expr)} :
    OperandList lv ts first more → (first.Layered ∧ lv.index < first.tightness) ∧
      ∀ x ∈ more, x.2.Layered ∧ lv.index < x.2.tightness
  | .last h => ⟨h.layered, fun _ hx => nomatch hx⟩
  | .more h _ _ h' => ⟨h.layered, List.forall_mem_cons.2 h'.layered⟩

/-- An operand is tighter than the level at which it stands. -/
theorem Operand.layered {lv : Level} {ts : List Token} {e : Expr} :
    Operand lv ts e → e.Layered ∧ lv.index < e.tightness
  | .pipe h => h.layered
  | .xor h => h.layered
  | .sum h => h.layered
  | .product h => ⟨h.layered.1, Nat.lt_of_lt_of_eq (by decide) h.layered.2.symm⟩

/-- An atom is layered, and nothing is tighter. -/
theorem Atom.layered {ts : List Token} {e : Expr} : Atom ts e → e.Layered ∧ e.tightness = 4
  | .command _ h => ⟨h.layered, rfl⟩
  | .literal _ => ⟨trivial, rfl⟩
  | .group _ h _ => ⟨by rw [Expr.Layered]; exact h.layered.1, rfl⟩

/-- Arguments are layered one by one. -/
theorem ArgumentList.layered {ts : List Token} {args : List Arg} :
    ArgumentList ts args → Arg.ListLayered args
  | .nil => trivial
  | .cons h h' => ⟨h.layered, h'.layered⟩

/-- A keyword is layered when its value is. -/
theorem Argument.layered {ts : List Token} {arg : Arg} : Argument ts arg → arg.Layered
  | .keyed _ _ h => by
    rw [Arg.Layered]
    exact h.layered
  | .plain h => h.layered

/-- A nested expression in an argument is a phrase of its own. -/
theorem ArgumentValue.layered {ts : List Token} {v : Arg} : ArgumentValue ts v → v.Layered
  | .literal _ => trivial
  | .nested _ h _ => by
    rw [Arg.Layered]
    exact h.layered.1

end

end Grammar

/-! ## The leaves of an expression -/

/-- The kind of the token that a symbol is written as; a symbol of no operator is not written. -/
def symbolKind (s : String) : TokenKind := (Operator.ofSymbol? s).elim .finish .operator

mutual

/-- The forms of the tokens of an expression, where parentheses stand for groups only. Literals are
    in quotes. -/
def Expr.forms : Expr → List (TokenKind × String)
  | .command name args => (.word, name) :: Arg.listForms args
  | .pipeline [] => []
  | .pipeline (e :: es) => e.forms ++ Expr.stageForms es
  | .binary l s r => l.forms ++ (symbolKind s, s) :: r.forms
  | .group e => (.opening, "(") :: (e.forms ++ [(.closing, ")")])
  | .literal value => [(.quoted, value)]

/-- The forms of the stages after the first. -/
def Expr.stageForms : List Expr → List (TokenKind × String)
  | [] => []
  | e :: es => (.pipe, "|") :: (e.forms ++ Expr.stageForms es)

def Arg.forms : Arg → List (TokenKind × String)
  | .literal value => [(.quoted, value)]
  | .keyed key value => (.word, key) :: (.equals, "=") :: value.forms
  | .nested e => (.opening, "(") :: (e.forms ++ [(.closing, ")")])

def Arg.listForms : List Arg → List (TokenKind × String)
  | [] => []
  | a :: as => a.forms ++ Arg.listForms as

end

/-- The symbol of an operator is lexed as that operator. -/
private theorem symbolKind_symbol (o : Operator) : symbolKind o.symbol = .operator o := by
  rw [symbolKind, Operator.ofSymbol?_symbol, Option.elim]

/-- Parentheses around what can be written down can be written down. -/
private theorem legible_parentheses {forms : List (TokenKind × String)}
    (h : ∀ f ∈ forms, Legible f) :
    ∀ f ∈ (TokenKind.opening, "(") :: (forms ++ [(.closing, ")")]), Legible f :=
  List.forall_mem_cons.2 ⟨.sign (c := '(') rfl,
    List.forall_mem_append.2 ⟨h, List.forall_mem_singleton.2 (.sign (c := ')') rfl)⟩⟩

mutual

/-- The leaves of a well-formed expression can be written down. -/
private theorem Expr.legible_forms : ∀ {e : Expr}, e.WellFormed → ∀ f ∈ e.forms, Legible f
  | .command name args, ⟨hn, h⟩ => by
    rw [Expr.forms]
    exact List.forall_mem_cons.2 ⟨.word hn, Arg.legible_listForms h⟩
  | .pipeline (e :: es), ⟨_, _, h, hs⟩ => by
    rw [Expr.forms]
    exact List.forall_mem_append.2 ⟨Expr.legible_forms h, Expr.legible_stageForms hs⟩
  | .binary l s r, ⟨⟨o, hs⟩, hl, hr⟩ => by
    rw [Expr.forms, hs, symbolKind_symbol]
    exact List.forall_mem_append.2 ⟨Expr.legible_forms hl,
      List.forall_mem_cons.2 ⟨legible_operator o, Expr.legible_forms hr⟩⟩
  | .group e, h => by
    rw [Expr.WellFormed] at h
    rw [Expr.forms]
    exact legible_parentheses (Expr.legible_forms h)
  | .literal v, _ => by
    rw [Expr.forms]
    exact List.forall_mem_singleton.2 (.quoted v)

/-- So do those of stages, with a pipe between them. -/
private theorem Expr.legible_stageForms :
    ∀ {es : List Expr}, Expr.ListWellFormed es → ∀ f ∈ Expr.stageForms es, Legible f
  | [], _ => fun _ hf => nomatch hf
  | e :: es, ⟨h, hs⟩ => by
    rw [Expr.stageForms]
    exact List.forall_mem_cons.2 ⟨.sign (c := '|') rfl,
      List.forall_mem_append.2 ⟨Expr.legible_forms h, Expr.legible_stageForms hs⟩⟩

/-- So do those of an argument: a keyword is a word, and a nested expression stands in parentheses.
    -/
private theorem Arg.legible_forms : ∀ {a : Arg}, a.WellFormed → ∀ f ∈ a.forms, Legible f
  | .literal v, _ => by
    rw [Arg.forms]
    exact List.forall_mem_singleton.2 (.quoted v)
  | .keyed key value, ⟨hk, _, h⟩ => by
    rw [Arg.forms]
    exact List.forall_mem_cons.2 ⟨.word hk,
      List.forall_mem_cons.2 ⟨.sign (c := '=') rfl, Arg.legible_forms h⟩⟩
  | .nested e, h => by
    rw [Arg.WellFormed] at h
    rw [Arg.forms]
    exact legible_parentheses (Expr.legible_forms h)

/-- So do those of arguments, one after the other. -/
private theorem Arg.legible_listForms :
    ∀ {as : List Arg}, Arg.ListWellFormed as → ∀ f ∈ Arg.listForms as, Legible f
  | [], _ => fun _ hf => nomatch hf
  | a :: as, ⟨h, hs⟩ => by
    rw [Arg.listForms]
    exact List.forall_mem_append.2 ⟨Arg.legible_forms h, Arg.legible_listForms hs⟩

end

/-! ## The leaves denote the expression -/

namespace Grammar

/-- The levels are numbered from the loosest on, and a phrase of one is a phrase of the looser
    ones. -/
private theorem Phrase.of_index_le {lv lv' : Level} {ts : List Token} {e : Expr}
    (h : Phrase lv ts e) (hle : lv'.index ≤ lv.index) : Phrase lv' ts e := by
  -- One step for each neighbouring pair of levels; the longer ways down are chains of these.
  have hsum (h : Phrase .product ts e) : Phrase .sum ts e := .of_operand (.sum h)
  have hxor (h : Phrase .sum ts e) : Phrase .xor ts e := .of_operand (.xor h)
  have hpipe (h : Phrase .xor ts e) : Phrase .pipe ts e := .of_operand (.pipe h)
  cases lv with
  | pipe =>
    cases lv' with
    | pipe => exact h
    | _ => exact absurd hle (by decide)
  | xor =>
    cases lv' with
    | pipe => exact hpipe h
    | xor => exact h
    | _ => exact absurd hle (by decide)
  | sum =>
    cases lv' with
    | pipe => exact hpipe (hxor h)
    | xor => exact hxor h
    | sum => exact h
    | product => exact absurd hle (by decide)
  | product =>
    cases lv' with
    | pipe => exact hpipe (hxor (hsum h))
    | xor => exact hxor (hsum h)
    | sum => exact hsum h
    | product => exact h

/-- At the levels of operators the last operand is joined last. -/
private theorem Level.build_snoc {lv : Level} (hlv : lv ≠ .pipe) (first : Expr)
    (more : List (Connective × Expr)) (k : Connective) (e : Expr) :
    lv.build first (more ++ [(k, e)]) = .binary (lv.build first more) k.symbol e := by
  cases lv with
  | pipe => exact absurd rfl hlv
  | _ => cases more <;> simp [build]

/-- A phrase of an operator level, an operator of this level and an operand are such a phrase. -/
private theorem Phrase.snoc {ts us : List Token} {t : Token} {l r : Expr} {o : Operator}
    (h : Phrase (.ofOperator o) ts l) (ht : t.kind = .operator o)
    (h' : Operand (.ofOperator o) us r) :
    Phrase (.ofOperator o) (ts ++ t :: us) (.binary l o.symbol r) := by
  obtain ⟨hlist⟩ := h
  have hlv : Level.ofOperator o ≠ .pipe := by cases o <;> decide
  have hsnoc := Phrase.build (hlist.append (Level.mem_connectives_ofOperator o) ht (.last h'))
  rwa [Level.build_snoc hlv] at hsnoc

end Grammar

open Grammar

/-- No expression is tighter than an atom. -/
theorem Expr.tightness_le (e : Expr) : e.tightness ≤ 4 := by
  cases e with
  | binary l s r =>
    rw [Expr.tightness]
    cases Operator.ofSymbol? s with
    | none => decide
    | some o => cases o <;> decide
  | pipeline _ => exact Nat.zero_le _
  | _ => exact Nat.le_refl _

/-- The tokens denote the expression at every level that is not tighter than it, and as an atom if
    it is one. -/
structure Expr.DerivedFrom (e : Expr) (ts : List Token) : Prop where
  phrase : ∀ lv : Level, lv.index ≤ e.tightness → Phrase lv ts e
  atom : e.tightness = 4 → Atom ts e

namespace Expr.DerivedFrom

variable {e l r : Expr} {ts us : List Token}

/-- An atom is a phrase at every level. -/
theorem of_atom (h : Atom ts e) : e.DerivedFrom ts :=
  ⟨fun lv _ => .of_atom h lv, fun _ => h⟩

/-- An expression is an operand at every looser level. -/
theorem operand (h : e.DerivedFrom ts) {lv : Level} (hlv : lv.index < e.tightness) :
    Operand lv ts e := by
  cases lv with
  | pipe => exact .pipe (h.phrase .xor hlv)
  | xor => exact .xor (h.phrase .sum hlv)
  | sum => exact .sum (h.phrase .product hlv)
  | product => exact .product (h.atom (Nat.le_antisymm e.tightness_le hlv))

/-- Operands that are tight enough make a phrase at the level of their operator, where the right one
    has to be tighter than that. -/
theorem binary {t : Token} {o : Operator} (hl : l.DerivedFrom ts) (hr : r.DerivedFrom us)
    (ht : t.kind = .operator o) (hle : Connective.levelOf o ≤ l.tightness)
    (hlt : Connective.levelOf o < r.tightness) :
    (Expr.binary l o.symbol r).DerivedFrom (ts ++ t :: us) := by
  have hindex : (Level.ofOperator o).index = Connective.levelOf o := by cases o <;> rfl
  have hp : Phrase (.ofOperator o) (ts ++ t :: us) (.binary l o.symbol r) :=
    -- A left operand may stand at the level of the sign itself, a right one has to be tighter.
    .snoc (hl.phrase _ (hindex ▸ hle)) ht (hr.operand (hindex ▸ hlt))
  refine ⟨fun lv hlv => hp.of_index_le ?_, fun h => ?_⟩
  · rwa [tightness_binary, ← hindex] at hlv
  · -- A binary expression is no atom.
    rw [tightness_binary] at h
    cases o <;> exact nomatch h

/-- A stage and further ones are a pipeline. -/
theorem pipeline {f : Expr} {es : List Expr}
    (h : OperandList .pipe ts e ((f :: es).map (Connective.pipe, ·))) :
    (Expr.pipeline (e :: f :: es)).DerivedFrom ts := by
  have hbuild : Level.pipe.build e ((f :: es).map (Connective.pipe, ·)) =
      .pipeline (e :: f :: es) := by
    simp [Level.build, Function.comp_def]
  refine ⟨fun lv hlv => ?_, fun h => ?_⟩
  · cases lv with
    | pipe => exact hbuild ▸ .build h
    | _ => exact absurd hlv (Nat.not_succ_le_zero _)
  · cases h

end Expr.DerivedFrom

/-- A well-formed expression that is no pipeline is tighter than one. -/
theorem Expr.tightness_pos {e : Expr} (h : e.WellFormed) (hp : e.isPipeline = false) :
    0 < e.tightness := by
  cases e with
  | binary l s r =>
    obtain ⟨⟨o, rfl⟩, -⟩ := h
    rw [tightness_binary]
    cases o <;> decide
  | pipeline _ => exact nomatch hp
  | _ => exact Nat.zero_lt_succ _

/-- A token of a given form. -/
private theorem eq_of_form {t : Token} {k : TokenKind} {s : String} (h : t.form = (k, s)) :
    t.kind = k ∧ t.literal = s :=
  Prod.mk.inj h

/-- Tokens of the forms of something in parentheses. -/
private theorem exists_of_parentheses {ts : List Token} {forms : List (TokenKind × String)}
    (h : ts.map Token.form = (TokenKind.opening, "(") :: (forms ++ [(.closing, ")")])) :
    ∃ t us u, ts = t :: us ++ [u] ∧ t.kind = .opening ∧ us.map Token.form = forms ∧
      u.kind = .closing := by
  obtain ⟨t, vs, rfl, ht, hvs⟩ := List.map_eq_cons_iff.1 h
  obtain ⟨us, ws, rfl, hus, hws⟩ := List.map_eq_append_iff.1 hvs
  obtain ⟨u, xs, rfl, hu, hxs⟩ := List.map_eq_cons_iff.1 hws
  obtain rfl := List.map_eq_nil_iff.1 hxs
  exact ⟨t, us, u, rfl, (eq_of_form ht).1, hus, (eq_of_form hu).1⟩

mutual

/-- Tokens whose forms are the leaves of a layered well-formed expression denote it. -/
theorem Expr.derivedFrom_of_forms : ∀ {e : Expr} {ts : List Token}, e.WellFormed → e.Layered →
    ts.map Token.form = e.forms → e.DerivedFrom ts
  | .command name args, ts, ⟨_, hwf⟩, hlay, h => by
    rw [Expr.forms, List.map_eq_cons_iff] at h
    obtain ⟨t, us, rfl, ht, hus⟩ := h
    obtain ⟨hk, rfl⟩ := eq_of_form ht
    exact .of_atom (.command hk (Arg.argumentList_of_forms hwf hlay hus))
  | .pipeline (e :: f :: es), ts, ⟨_, hflat, hwf, hwfs⟩, ⟨hlay, hlays⟩, h => by
    rw [Expr.forms, List.map_eq_append_iff] at h
    obtain ⟨us, vs, rfl, hus, hvs⟩ := h
    -- A stage is no pipeline, so it can be the operand of one.
    have he : Operand .pipe us e := (Expr.derivedFrom_of_forms hwf hlay hus).operand
      (Expr.tightness_pos hwf (hflat e List.mem_cons_self))
    exact .pipeline (Expr.operandList_of_stageForms
      (fun g hg => hflat g (List.mem_cons_of_mem _ hg)) hwfs hlays hvs he)
  | .binary l s r, ts, ⟨⟨o, hs⟩, hwl, hwr⟩, ⟨⟨hle, hll⟩, hlt, hlr⟩, h => by
    subst hs
    rw [Expr.tightness_binary] at hle hlt
    -- The tokens split where the tree does: those of the left side, the sign, and those of the
    -- right.
    rw [Expr.forms, symbolKind_symbol, List.map_eq_append_iff] at h
    obtain ⟨us, vs, rfl, hus, hvs⟩ := h
    obtain ⟨t, vs, rfl, ht, hvs⟩ := List.map_eq_cons_iff.1 hvs
    exact .binary (Expr.derivedFrom_of_forms hwl hll hus) (Expr.derivedFrom_of_forms hwr hlr hvs)
      (eq_of_form ht).1 hle hlt
  | .group e, ts, hwf, hlay, h => by
    rw [Expr.WellFormed] at hwf
    rw [Expr.Layered] at hlay
    rw [Expr.forms] at h
    obtain ⟨t, us, u, rfl, ht, hus, hu⟩ := exists_of_parentheses h
    have he := Expr.derivedFrom_of_forms hwf hlay hus
    exact .of_atom (.group ht (he.phrase .pipe (Nat.zero_le _)) hu)
  | .literal v, ts, _, _, h => by
    rw [Expr.forms, List.map_eq_cons_iff] at h
    obtain ⟨t, us, rfl, ht, hus⟩ := h
    obtain ⟨hk, rfl⟩ := eq_of_form ht
    obtain rfl := List.map_eq_nil_iff.1 hus
    exact .of_atom (.literal (.inr hk))

/-- Stages go on behind any stage. -/
private theorem Expr.operandList_of_stageForms : ∀ {es : List Expr} {ts us : List Token} {f : Expr},
    (∀ e ∈ es, e.isPipeline = false) → Expr.ListWellFormed es → Expr.ListLayered es →
      ts.map Token.form = Expr.stageForms es → Operand .pipe us f →
        OperandList .pipe (us ++ ts) f (es.map (Connective.pipe, ·))
  | [], ts, us, f, _, _, _, h, hf => by
    obtain rfl := List.map_eq_nil_iff.1 h
    rw [List.append_nil]
    exact .last hf
  | e :: es, ts, us, f, hflat, ⟨hwf, hwfs⟩, ⟨hlay, hlays⟩, h, hf => by
    rw [Expr.stageForms, List.map_eq_cons_iff] at h
    obtain ⟨t, vs, rfl, ht, hvs⟩ := h
    obtain ⟨vs, ws, rfl, hvs, hws⟩ := List.map_eq_append_iff.1 hvs
    -- The stage behind the bar is the next operand; the list so far becomes the front of a longer
    -- one.
    have he : Operand .pipe vs e := (Expr.derivedFrom_of_forms hwf hlay hvs).operand
      (Expr.tightness_pos hwf (hflat e List.mem_cons_self))
    exact .more hf (List.mem_singleton.2 rfl) (eq_of_form ht).1 (Expr.operandList_of_stageForms
      (fun g hg => hflat g (List.mem_cons_of_mem _ hg)) hwfs hlays hws he)

/-- The same for arguments. -/
private theorem Arg.argument_of_forms : ∀ {a : Arg} {ts : List Token}, a.WellFormed → a.Layered →
    ts.map Token.form = a.forms →
      Argument ts a ∧ (a.isKeyed = false → ArgumentValue ts a)
  | .literal v, ts, _, _, h => by
    rw [Arg.forms, List.map_eq_cons_iff] at h
    obtain ⟨t, us, rfl, ht, hus⟩ := h
    obtain ⟨hk, rfl⟩ := eq_of_form ht
    obtain rfl := List.map_eq_nil_iff.1 hus
    have hv : ArgumentValue [t] (.literal t.literal) := .literal (.inr (.inr hk))
    exact ⟨.plain hv, fun _ => hv⟩
  | .keyed key value, ts, ⟨_, hkeyed, hwf⟩, hlay, h => by
    rw [Arg.Layered] at hlay
    rw [Arg.forms, List.map_eq_cons_iff] at h
    obtain ⟨t, us, rfl, ht, hus⟩ := h
    obtain ⟨u, vs, rfl, hu, hvs⟩ := List.map_eq_cons_iff.1 hus
    obtain ⟨hk, rfl⟩ := eq_of_form ht
    -- The value of a keyword is no keyword itself, so it is derived as a value.
    have hv := (Arg.argument_of_forms hwf hlay hvs).2 hkeyed
    exact ⟨.keyed hk (eq_of_form hu).1 hv, fun h => by cases h⟩
  | .nested e, ts, hwf, hlay, h => by
    rw [Arg.WellFormed] at hwf
    rw [Arg.Layered] at hlay
    rw [Arg.forms] at h
    obtain ⟨t, us, u, rfl, ht, hus, hu⟩ := exists_of_parentheses h
    have he := Expr.derivedFrom_of_forms hwf hlay hus
    have hv : ArgumentValue (t :: us ++ [u]) (.nested e) :=
      .nested ht (he.phrase .pipe (Nat.zero_le _)) hu
    exact ⟨.plain hv, fun _ => hv⟩

/-- The forms of arguments are the tokens of these arguments. -/
private theorem Arg.argumentList_of_forms :
    ∀ {as : List Arg} {ts : List Token}, Arg.ListWellFormed as →
    Arg.ListLayered as → ts.map Token.form = Arg.listForms as → ArgumentList ts as
  | [], ts, _, _, h => by
    obtain rfl := List.map_eq_nil_iff.1 h
    exact .nil
  | a :: as, ts, ⟨hwf, hwfs⟩, ⟨hlay, hlays⟩, h => by
    rw [Arg.listForms, List.map_eq_append_iff] at h
    obtain ⟨us, vs, rfl, hus, hvs⟩ := h
    exact .cons (Arg.argument_of_forms hwf hlay hus).1 (Arg.argumentList_of_forms hwfs hlays hvs)

end

/-! ## The expressions that texts denote -/

/-- Writing down the leaves of a layered well-formed expression gives a text that denotes it. -/
theorem Expr.parse_textOfForms {e : Expr} (hwf : e.WellFormed) (hlay : e.Layered) :
    parse (textOfForms e.forms) = .ok e := by
  have hforms := form_properTokens_textOfForms (Expr.legible_forms hwf)
  have hderived := Expr.derivedFrom_of_forms hwf hlay hforms
  exact parse_eq_ok_iff.2 (hderived.phrase .pipe (Nat.zero_le _))

/-- An expression is denoted by some text exactly when it is well-formed and layered: its names and
    keywords are words, no keyword is the value of a keyword, its infix symbols are symbols of
    operators, its pipelines are flat and have at least two stages, no operand is a pipeline, no
    left operand is looser than its operator, and no right operand is looser or as tight. -/
theorem exists_parse_eq_ok_iff (e : Expr) :
    (∃ text, parse text = .ok e) ↔ e.WellFormed ∧ e.Layered := by
  constructor
  · rintro ⟨text, h⟩
    exact ⟨wellFormed_of_parse h, (parse_eq_ok_iff.1 h).layered.1⟩
  · rintro ⟨hwf, hlay⟩
    exact ⟨textOfForms e.forms, Expr.parse_textOfForms hwf hlay⟩

end Tapestry
