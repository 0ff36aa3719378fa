import Tapestry.Proofs.Equivalence
import Tapestry.Proofs.WellFormed

/-!
# Writing and reading expressions

The text of a well-formed expression reads back as the same expression with parentheses around every
operand of an infix operator (`Expr.grouped`). The proof follows the text: at each node the tokens
of the parts are put together, in front of any characters that break off a word, and the grammar
derives the expression from them.

## Key results

- `Expr.readsBack`: the text of a well-formed expression yields tokens that denote `Expr.grouped`
- `Expr.withoutGroups_grouped`: both trees are the same without groups, so they are equivalent
- `Expr.render_grouped`: both trees have the same text
- `parse_render`: what reading the text of a well-formed expression gives
-/

namespace Tapestry

/-! ## Operands in parentheses -/

/-- Whether an expression is a group. -/
def Expr.isGroup : Expr → Bool
  | group _ => true
  | _ => false

/-- A group as it is, and any other expression as the inner one of a group. -/
def Expr.asGroup : Expr → Expr
  | group e => group e
  | e => group e

mutual

/-- The expression with every operand of an infix operator in parentheses, at every depth. -/
def Expr.grouped : Expr → Expr
  | .command name args => .command name (Arg.listGrouped args)
  | .pipeline stages => .pipeline (Expr.listGrouped stages)
  | .binary l s r => .binary l.grouped.asGroup s r.grouped.asGroup
  | .group e => .group e.grouped
  | .literal v => .literal v

def Expr.listGrouped : List Expr → List Expr
  | [] => []
  | e :: es => e.grouped :: Expr.listGrouped es

def Arg.grouped : Arg → Arg
  | .literal v => .literal v
  | .keyed key value => .keyed key value.grouped
  | .nested e => .nested e.grouped

def Arg.listGrouped : List Arg → List Arg
  | [] => []
  | a :: as => a.grouped :: Arg.listGrouped as

end

mutual

/-- Whether every operand of an infix operator is a group, at every depth. -/
def Expr.OperandsGrouped : Expr → Prop
  | .command _ args => Arg.ListOperandsGrouped args
  | .pipeline stages => Expr.ListOperandsGrouped stages
  | .binary l _ r =>
    (l.isGroup = true ∧ l.OperandsGrouped) ∧ (r.isGroup = true ∧ r.OperandsGrouped)
  | .group e => e.OperandsGrouped
  | .literal _ => True

def Expr.ListOperandsGrouped : List Expr → Prop
  | [] => True
  | e :: es => e.OperandsGrouped ∧ Expr.ListOperandsGrouped es

def Arg.OperandsGrouped : Arg → Prop
  | .literal _ => True
  | .keyed _ value => value.OperandsGrouped
  | .nested e => e.OperandsGrouped

def Arg.ListOperandsGrouped : List Arg → Prop
  | [] => True
  | a :: as => a.OperandsGrouped ∧ Arg.ListOperandsGrouped as

end

namespace Expr

/-- Grouping operands makes no group of the whole. -/
private theorem isGroup_grouped (e : Expr) : e.grouped.isGroup = e.isGroup := by
  cases e <;> rfl

/-- A group needs no other one around it. -/
private theorem asGroup_of_isGroup {e : Expr} (h : e.isGroup = true) : e.asGroup = e := by
  cases e <;> first | rfl | exact nomatch h

/-- Anything else gets one. -/
private theorem asGroup_of_not_isGroup {e : Expr} (h : e.isGroup = false) :
    e.asGroup = group e := by
  cases e <;> first | rfl | exact nomatch h

/-- An operand that is a group is written as it is. -/
private theorem renderOperand_of_isGroup {e : Expr} (h : e.isGroup = true) :
    e.renderOperand = e.render := by
  rw [renderOperand_eq]
  cases e <;> first | rfl | exact nomatch h

/-- Any other operand is written in parentheses. -/
private theorem renderOperand_of_not_isGroup {e : Expr} (h : e.isGroup = false) :
    e.renderOperand = parenthesize e.render := by
  rw [renderOperand_eq]
  cases e <;> first | rfl | exact nomatch h

/-- An operand is written like the group that it is put into. -/
private theorem renderOperand_asGroup (e : Expr) : e.asGroup.renderOperand = e.renderOperand := by
  cases h : e.isGroup with
  | true => rw [asGroup_of_isGroup h]
  | false =>
    rw [asGroup_of_not_isGroup h, renderOperand_of_isGroup rfl, renderOperand_of_not_isGroup h,
      render]

/-- The text of an operand depends on its own text and on whether it is a group. -/
private theorem renderOperand_congr {e f : Expr} (hg : e.isGroup = f.isGroup)
    (hr : e.render = f.render) : e.renderOperand = f.renderOperand := by
  cases h : f.isGroup with
  | true => rw [renderOperand_of_isGroup h, renderOperand_of_isGroup (hg.trans h), hr]
  | false => rw [renderOperand_of_not_isGroup h, renderOperand_of_not_isGroup (hg.trans h), hr]

end Expr

mutual

/-- An expression without ungrouped operands is not changed. -/
theorem Expr.grouped_of_operandsGrouped : ∀ {e : Expr}, e.OperandsGrouped → e.grouped = e
  | .command name args, h => by
    rw [Expr.grouped, Arg.listGrouped_of_operandsGrouped h]
  | .pipeline stages, h => by
    rw [Expr.grouped, Expr.listGrouped_of_operandsGrouped h]
  | .binary l s r, ⟨⟨hl, hl'⟩, ⟨hr, hr'⟩⟩ => by
    rw [Expr.grouped, Expr.grouped_of_operandsGrouped hl', Expr.grouped_of_operandsGrouped hr',
      Expr.asGroup_of_isGroup hl, Expr.asGroup_of_isGroup hr]
  | .group e, h => by
    rw [Expr.OperandsGrouped] at h
    rw [Expr.grouped, Expr.grouped_of_operandsGrouped h]
  | .literal v, _ => by rw [Expr.grouped]

/-- Stages whose operands are groups stay as they are. -/
private theorem Expr.listGrouped_of_operandsGrouped :
    ∀ {es : List Expr}, Expr.ListOperandsGrouped es → Expr.listGrouped es = es
  | [], _ => rfl
  | e :: es, ⟨h, h'⟩ => by
    rw [Expr.listGrouped, Expr.grouped_of_operandsGrouped h,
      Expr.listGrouped_of_operandsGrouped h']

theorem Arg.grouped_of_operandsGrouped : ∀ {a : Arg}, a.OperandsGrouped → a.grouped = a
  | .literal v, _ => by rw [Arg.grouped]
  | .keyed key value, h => by
    rw [Arg.OperandsGrouped] at h
    rw [Arg.grouped, Arg.grouped_of_operandsGrouped h]
  | .nested e, h => by
    rw [Arg.OperandsGrouped] at h
    rw [Arg.grouped, Expr.grouped_of_operandsGrouped h]

private theorem Arg.listGrouped_of_operandsGrouped :
    ∀ {as : List Arg}, Arg.ListOperandsGrouped as → Arg.listGrouped as = as
  | [], _ => rfl
  | a :: as, ⟨h, h'⟩ => by
    rw [Arg.listGrouped, Arg.grouped_of_operandsGrouped h,
      Arg.listGrouped_of_operandsGrouped h']

end

/-! ## The same text -/

mutual

/-- Putting operands in parentheses does not change the text, which has them already. -/
theorem Expr.render_grouped : ∀ e : Expr, e.grouped.render = e.render
  | .command name args => by
    rw [Expr.grouped, Expr.render, Expr.render, Arg.renderList_listGrouped args]
  | .pipeline [] => rfl
  | .pipeline (e :: es) => by
    rw [Expr.grouped, Expr.listGrouped, Expr.render, Expr.render, Expr.render_grouped e,
      Expr.renderStages_listGrouped es]
  -- An operand in a group is written as it is without one, and grouping twice changes nothing.
  | .binary l s r => by
    rw [Expr.grouped, Expr.render, Expr.render, Expr.renderOperand_asGroup,
      Expr.renderOperand_asGroup,
      Expr.renderOperand_congr l.isGroup_grouped (Expr.render_grouped l),
      Expr.renderOperand_congr r.isGroup_grouped (Expr.render_grouped r)]
  | .group e => by rw [Expr.grouped, Expr.render, Expr.render, Expr.render_grouped e]
  | .literal v => by rw [Expr.grouped]

/-- Stages are rendered alike with their operands grouped. -/
theorem Expr.renderStages_listGrouped :
    ∀ es : List Expr, Expr.renderStages (Expr.listGrouped es) = Expr.renderStages es
  | [] => rfl
  | e :: es => by
    rw [Expr.listGrouped, Expr.renderStages, Expr.renderStages, Expr.render_grouped e,
      Expr.renderStages_listGrouped es]

theorem Arg.render_grouped : ∀ a : Arg, a.grouped.render = a.render
  | .literal v => by rw [Arg.grouped]
  | .keyed key value => by rw [Arg.grouped, Arg.render, Arg.render, Arg.render_grouped value]
  | .nested e => by rw [Arg.grouped, Arg.render, Arg.render, Expr.render_grouped e]

theorem Arg.renderList_listGrouped :
    ∀ as : List Arg, Arg.renderList (Arg.listGrouped as) = Arg.renderList as
  | [] => rfl
  | a :: as => by
    rw [Arg.listGrouped, Arg.renderList, Arg.renderList, Arg.render_grouped a,
      Arg.renderList_listGrouped as]

end

/-! ## The same tree without groups -/

/-- Without groups, nothing was added. -/
private theorem Expr.withoutGroups_asGroup (e : Expr) :
    e.asGroup.withoutGroups = e.withoutGroups := by
  cases e <;> rfl

mutual

/-- Putting operands in parentheses adds nothing but groups. -/
theorem Expr.withoutGroups_grouped : ∀ e : Expr, e.grouped.withoutGroups = e.withoutGroups
  | .command name args => by
    rw [Expr.grouped, Expr.withoutGroups, Expr.withoutGroups, Arg.listWithoutGroups_grouped args]
  | .pipeline stages => by
    rw [Expr.grouped, Expr.withoutGroups, Expr.withoutGroups,
      Expr.listWithoutGroups_grouped stages]
  | .binary l s r => by
    rw [Expr.grouped, Expr.withoutGroups, Expr.withoutGroups, Expr.withoutGroups_asGroup,
      Expr.withoutGroups_asGroup, Expr.withoutGroups_grouped l, Expr.withoutGroups_grouped r]
  | .group e => by
    rw [Expr.grouped, Expr.withoutGroups, Expr.withoutGroups, Expr.withoutGroups_grouped e]
  | .literal v => by rw [Expr.grouped]

/-- The stages are the same without groups. -/
theorem Expr.listWithoutGroups_grouped :
    ∀ es : List Expr, Expr.listWithoutGroups (Expr.listGrouped es) = Expr.listWithoutGroups es
  | [] => rfl
  | e :: es => by
    rw [Expr.listGrouped, Expr.listWithoutGroups, Expr.listWithoutGroups,
      Expr.withoutGroups_grouped e, Expr.listWithoutGroups_grouped es]

theorem Arg.withoutGroups_grouped : ∀ a : Arg, a.grouped.withoutGroups = a.withoutGroups
  | .literal v => by rw [Arg.grouped]
  | .keyed key value => by
    rw [Arg.grouped, Arg.withoutGroups, Arg.withoutGroups, Arg.withoutGroups_grouped value]
  | .nested e => by
    rw [Arg.grouped, Arg.withoutGroups, Arg.withoutGroups, Expr.withoutGroups_grouped e]

theorem Arg.listWithoutGroups_grouped :
    ∀ as : List Arg, Arg.listWithoutGroups (Arg.listGrouped as) = Arg.listWithoutGroups as
  | [] => rfl
  | a :: as => by
    rw [Arg.listGrouped, Arg.listWithoutGroups, Arg.listWithoutGroups,
      Arg.withoutGroups_grouped a, Arg.listWithoutGroups_grouped as]

end

/-! ## Reading the text -/

open Grammar

/-- The tokens denote the expression with its operands in parentheses, at the tightest level that
    its form allows. -/
structure Expr.DenotedBy (e : Expr) (ts : List Token) : Prop where
  pipe : Phrase .pipe ts e.grouped
  xor : e.isPipeline = false → Phrase .xor ts e.grouped
  atom : e.isGroup = true → Atom ts e.grouped

/-- From any place, the text of the expression reads as tokens that denote it, and reading stops
    right behind it when what follows breaks off a word. -/
def Expr.ReadsBack (e : Expr) : Prop :=
  ∀ rest, Breaks rest → ∀ o, ∃ ts o',
    Cursor.Steps ⟨e.render.toList ++ rest, o⟩ ts ⟨rest, o'⟩ ∧ e.DenotedBy ts

/-- The same for an argument. -/
def Arg.ReadsBack (a : Arg) : Prop :=
  ∀ rest, Breaks rest → ∀ o, ∃ ts o', Cursor.Steps ⟨a.render.toList ++ rest, o⟩ ts ⟨rest, o'⟩ ∧
    Argument ts a.grouped ∧ (a.isKeyed = false → ArgumentValue ts a.grouped)

/-- The same for a list of arguments. -/
def Arg.ListReadsBack (as : List Arg) : Prop :=
  ∀ rest, Breaks rest → ∀ o, ∃ ts o',
    Cursor.Steps ⟨(Arg.renderList as).toList ++ rest, o⟩ ts ⟨rest, o'⟩ ∧
      ArgumentList ts (Arg.listGrouped as)

/-- The stages of a pipeline after the first, behind any stage. -/
def Expr.StagesReadBack (es : List Expr) : Prop :=
  ∀ rest, Breaks rest → ∀ o, ∃ ts o',
    Cursor.Steps ⟨(Expr.renderStages es).toList ++ rest, o⟩ ts ⟨rest, o'⟩ ∧
      ∀ us f, Operand .pipe us f →
        OperandList .pipe (us ++ ts) f ((Expr.listGrouped es).map (Connective.pipe, ·))

/-- An atom denotes an expression at every level. -/
theorem Expr.DenotedBy.of_atom {e : Expr} {ts : List Token} (h : Atom ts e.grouped) :
    e.DenotedBy ts :=
  ⟨.of_atom h _, fun _ => .of_atom h _, fun _ => h⟩

/-- An expression in parentheses is read up to the closing one. -/
theorem Expr.ReadsBack.parenthesize {e : Expr} (h : e.ReadsBack) (rest : List Char) (o : Nat) :
    ∃ t ts u o', Cursor.Steps ⟨(parenthesize e.render).toList ++ rest, o⟩ (t :: ts ++ [u])
        ⟨rest, o'⟩ ∧ t.kind = .opening ∧ e.DenotedBy ts ∧ u.kind = .closing := by
  -- The closing parenthesis breaks off whatever stands before it.
  have htext : (Tapestry.parenthesize e.render).toList ++ rest =
      '(' :: (e.render.toList ++ ')' :: rest) := by
    simp [Tapestry.parenthesize]
  have hopen := steps_sign (c := '(') rfl (e.render.toList ++ ')' :: rest) o
  obtain ⟨ts, o₁, hsteps, hts⟩ :=
    h (')' :: rest) (breaks_cons (by decide) (by decide) rest) (o + '('.utf8Size)
  have hclose := steps_sign (c := ')') rfl rest o₁
  rw [htext]
  exact ⟨_, ts, _, _, (hopen.append hsteps).append hclose, rfl, hts, rfl⟩

/-- What follows an argument breaks off a word. -/
private theorem Arg.breaks_renderList {rest : List Char} (h : Breaks rest) (as : List Arg) :
    Breaks ((Arg.renderList as).toList ++ rest) := by
  cases as with
  | nil => exact h
  | cons a as =>
    rw [Arg.renderList, String.append_assoc, String.toList_append, List.append_assoc]
    exact breaks_cons (by decide) (by decide) _

/-- What follows a stage of a pipeline breaks off a word. -/
private theorem Expr.breaks_renderStages {rest : List Char} (h : Breaks rest) (es : List Expr) :
    Breaks ((Expr.renderStages es).toList ++ rest) := by
  cases es with
  | nil => exact h
  | cons e es =>
    rw [Expr.renderStages, String.append_assoc, String.toList_append, List.append_assoc]
    exact breaks_cons (by decide) (by decide) _

namespace Expr.ReadsBack

/-- A literal is rendered as a quoted string, which is read as that literal. -/
theorem literal (v : String) : (Expr.literal v).ReadsBack := by
  intro rest _ o
  exact ⟨_, _, steps_quote v rest o, .of_atom (.literal (.inr rfl))⟩

/-- A group is rendered in parentheses. -/
theorem group {e : Expr} (h : e.ReadsBack) : (Expr.group e).ReadsBack := by
  intro rest _ o
  obtain ⟨t, ts, u, o', hsteps, ht, hts, hu⟩ := h.parenthesize rest o
  exact ⟨_, o', hsteps, .of_atom (.group ht hts.pipe hu)⟩

/-- A command is rendered as a word, with a space in front of each of its arguments. -/
theorem command {name : String} {args : List Arg} (hn : IsWord name)
    (h : Arg.ListReadsBack args) : (Expr.command name args).ReadsBack := by
  intro rest hrest o
  have htext : (Expr.command name args).render.toList ++ rest =
      name.toList ++ ((Arg.renderList args).toList ++ rest) := by
    rw [Expr.render, String.toList_append, List.append_assoc]
  have hname := steps_word hn (Arg.breaks_renderList hrest args) o
  obtain ⟨ts, o', hargs, hts⟩ := h rest hrest _
  rw [htext]
  exact ⟨[_] ++ ts, o', hname.append hargs, .of_atom (.command rfl hts)⟩

/-- An operand is read as an atom. -/
theorem operand {e : Expr} (h : e.ReadsBack) {rest : List Char} (hrest : Breaks rest) (o : Nat) :
    ∃ ts o', Cursor.Steps ⟨e.renderOperand.toList ++ rest, o⟩ ts ⟨rest, o'⟩ ∧
      Atom ts e.grouped.asGroup := by
  cases hg : e.isGroup with
  | true =>
    obtain ⟨ts, o', hsteps, hts⟩ := h rest hrest o
    rw [renderOperand_of_isGroup hg, asGroup_of_isGroup (e.isGroup_grouped.trans hg)]
    exact ⟨ts, o', hsteps, hts.atom hg⟩
  | false =>
    obtain ⟨t, ts, u, o', hsteps, ht, hts, hu⟩ := h.parenthesize rest o
    rw [renderOperand_of_not_isGroup hg, asGroup_of_not_isGroup (e.isGroup_grouped.trans hg)]
    exact ⟨_, o', hsteps, .group ht hts.pipe hu⟩

/-- Operands are rendered in parentheses, so each of them is an atom again. -/
theorem binary {l r : Expr} (p : Operator) (hl : l.ReadsBack) (hr : r.ReadsBack) :
    (Expr.binary l p.symbol r).ReadsBack := by
  intro rest hrest o
  have htext : (Expr.binary l p.symbol r).render.toList ++ rest = l.renderOperand.toList ++
      ' ' :: (p.symbol.toList ++ ' ' :: (r.renderOperand.toList ++ rest)) := by
    simp [Expr.render]
  -- Blanks keep the sign apart from both operands.
  have hblank : Breaks (' ' :: (p.symbol.toList ++ ' ' :: (r.renderOperand.toList ++ rest))) :=
    breaks_cons (by decide) (by decide) _
  obtain ⟨ts, o₁, hleft, hts⟩ := hl.operand hblank o
  obtain ⟨t, o₂, hsign, ht⟩ := steps_operator p (r.renderOperand.toList ++ rest) (o₁ + ' '.utf8Size)
  obtain ⟨us, o₃, hright, hus⟩ := hr.operand hrest (o₂ + ' '.utf8Size)
  have hsign := hsign.blank (by decide) (List.cons_ne_nil _ _)
  have hright := hright.blank (by decide) hus.ne_nil
  have hp : Phrase .xor (ts ++ t :: us) (Expr.binary l p.symbol r).grouped :=
    .binary hts ht hus
  rw [htext]
  exact ⟨ts ++ ([t] ++ us), o₃, hleft.append (hsign.append hright),
    ⟨.of_operand (.pipe hp), fun _ => hp, fun h => nomatch h⟩⟩

/-- Stages are rendered with pipes between them, and none of them is a pipeline itself. -/
theorem pipeline {e f : Expr} {es : List Expr} (he : e.isPipeline = false) (h : e.ReadsBack)
    (hs : Expr.StagesReadBack (f :: es)) : (Expr.pipeline (e :: f :: es)).ReadsBack := by
  intro rest hrest o
  have htext : (Expr.pipeline (e :: f :: es)).render.toList ++ rest =
      e.render.toList ++ ((Expr.renderStages (f :: es)).toList ++ rest) := by
    rw [Expr.render, String.toList_append, List.append_assoc]
  obtain ⟨ts, o₁, hfirst, hts⟩ := h _ (Expr.breaks_renderStages hrest (f :: es)) o
  obtain ⟨us, o₂, hmore, hus⟩ := hs rest hrest o₁
  -- The later stages were collected behind any first one, so they stand behind this one too.
  have hp := Phrase.build (hus ts e.grouped (.pipe (hts.xor he)))
  have hbuild : Level.pipe.build e.grouped
      ((Expr.listGrouped (f :: es)).map (Connective.pipe, ·)) =
        (Expr.pipeline (e :: f :: es)).grouped := by
    simp [Level.build, Expr.grouped, Expr.listGrouped, Function.comp_def]
  rw [hbuild] at hp
  rw [htext]
  exact ⟨ts ++ us, o₂, hfirst.append hmore,
    ⟨hp, fun h => absurd h Bool.noConfusion, fun h => absurd h Bool.noConfusion⟩⟩

end Expr.ReadsBack

/-- Behind the last stage nothing is rendered. -/
private theorem Expr.stagesReadBack_nil : Expr.StagesReadBack [] := by
  intro rest _ o
  refine ⟨[], o, .refl _, fun us f h => ?_⟩
  rw [List.append_nil]
  exact .last h

/-- Each stage comes behind a pipe. -/
private theorem Expr.stagesReadBack_cons {e : Expr} {es : List Expr} (he : e.isPipeline = false)
    (h : e.ReadsBack) (hs : Expr.StagesReadBack es) : Expr.StagesReadBack (e :: es) := by
  intro rest hrest o
  have htext : (Expr.renderStages (e :: es)).toList ++ rest =
      ' ' :: '|' :: ' ' :: (e.render.toList ++ ((Expr.renderStages es).toList ++ rest)) := by
    simp [Expr.renderStages]
  have hsign := (steps_sign (c := '|') rfl
    (' ' :: (e.render.toList ++ ((Expr.renderStages es).toList ++ rest)))
    (o + ' '.utf8Size)).blank (by decide) (List.cons_ne_nil _ _)
  obtain ⟨ts, o₁, hfirst, hts⟩ := h _ (Expr.breaks_renderStages hrest es)
    (o + ' '.utf8Size + '|'.utf8Size + ' '.utf8Size)
  have hp := hts.xor he
  -- The blank before the stage can be skipped because the stage has a first token.
  have hne : ts ≠ [] := by
    obtain ⟨head, tail, hrow, -⟩ := phrase_pipe_iff.1 hts.pipe
    exact hrow.ne_nil
  obtain ⟨us, o₂, hmore, hus⟩ := hs rest hrest o₁
  rw [htext]
  refine ⟨_, o₂, hsign.append ((hfirst.blank (by decide) hne).append hmore), fun vs f hf => ?_⟩
  exact .more hf (List.mem_singleton.2 rfl) rfl (hus ts e.grouped (.pipe hp))

namespace Arg.ReadsBack

/-- A literal argument is quoted, like a literal expression. -/
theorem literal (v : String) : (Arg.literal v).ReadsBack := by
  intro rest hrest o
  obtain ⟨kind, hkind, hstep⟩ := steps_renderLiteral v hrest o
  exact ⟨_, _, hstep, .plain (.literal hkind), fun _ => .literal hkind⟩

/-- A nested expression stands in parentheses. -/
theorem nested {e : Expr} (h : e.ReadsBack) : (Arg.nested e).ReadsBack := by
  intro rest _ o
  obtain ⟨t, ts, u, o', hsteps, ht, hts, hu⟩ := h.parenthesize rest o
  have hv : ArgumentValue (t :: ts ++ [u]) (Arg.nested e).grouped := .nested ht hts.pipe hu
  exact ⟨_, o', hsteps, .plain hv, fun _ => hv⟩

/-- A keyword stands in front of an equals sign and its value. -/
theorem keyed {key : String} {value : Arg} (hk : IsWord key) (hv : value.isKeyed = false)
    (h : value.ReadsBack) : (Arg.keyed key value).ReadsBack := by
  intro rest hrest o
  have htext : (Arg.keyed key value).render.toList ++ rest =
      key.toList ++ '=' :: (value.render.toList ++ rest) := by
    simp [Arg.render]
  -- The equals sign breaks off the keyword.
  have hbreak : Breaks ('=' :: (value.render.toList ++ rest)) :=
    breaks_cons (by decide) (by decide) _
  have hkey := steps_word hk hbreak o
  have hsign := steps_sign (c := '=') rfl (value.render.toList ++ rest)
    (o + Text.utf8Length key.toList)
  obtain ⟨ts, o', hvalue, -, hts⟩ := h rest hrest _
  rw [htext]
  exact ⟨_, o', hkey.append (hsign.append hvalue), .keyed rfl rfl (hts hv), fun h => nomatch h⟩

end Arg.ReadsBack

/-- Without arguments nothing is rendered. -/
private theorem Arg.listReadsBack_nil : Arg.ListReadsBack [] :=
  fun _ _ o => ⟨[], o, .refl _, .nil⟩

/-- Each argument comes behind a space. -/
private theorem Arg.listReadsBack_cons {a : Arg} {as : List Arg} (h : a.ReadsBack)
    (hs : Arg.ListReadsBack as) : Arg.ListReadsBack (a :: as) := by
  intro rest hrest o
  have htext : (Arg.renderList (a :: as)).toList ++ rest =
      ' ' :: (a.render.toList ++ ((Arg.renderList as).toList ++ rest)) := by
    simp [Arg.renderList]
  obtain ⟨ts, o₁, hfirst, hts, -⟩ := h _ (Arg.breaks_renderList hrest as) (o + ' '.utf8Size)
  obtain ⟨us, o₂, hmore, hus⟩ := hs rest hrest o₁
  rw [htext]
  exact ⟨ts ++ us, o₂, (hfirst.blank (by decide) hts.ne_nil).append hmore, .cons hts hus⟩

mutual

/-- The text of a well-formed expression reads back as tokens that denote it. -/
theorem Expr.readsBack : ∀ {e : Expr}, e.WellFormed → e.ReadsBack
  | .command _ _, ⟨hn, h⟩ => .command hn (Arg.listReadsBack h)
  | .pipeline (_ :: _ :: _), ⟨_, hflat, h, hs⟩ =>
    .pipeline (hflat _ List.mem_cons_self) (Expr.readsBack h)
      (Expr.stagesReadBack (fun f hf => hflat f (List.mem_cons_of_mem _ hf)) hs)
  | .binary _ _ _, ⟨⟨p, hp⟩, hl, hr⟩ =>
    hp ▸ .binary p (Expr.readsBack hl) (Expr.readsBack hr)
  | .group _, h => .group (Expr.readsBack (by rw [Expr.WellFormed] at h; exact h))
  | .literal v, _ => .literal v

/-- All stages are read back, since none is a pipeline. -/
theorem Expr.stagesReadBack :
    ∀ {es : List Expr}, (∀ e ∈ es, e.isPipeline = false) → Expr.ListWellFormed es →
      Expr.StagesReadBack es
  | [], _, _ => Expr.stagesReadBack_nil
  | _ :: _, hflat, ⟨h, hs⟩ =>
    Expr.stagesReadBack_cons (hflat _ List.mem_cons_self) (Expr.readsBack h)
      (Expr.stagesReadBack (fun f hf => hflat f (List.mem_cons_of_mem _ hf)) hs)

/-- All arguments are read back. -/
theorem Arg.readsBack : ∀ {a : Arg}, a.WellFormed → a.ReadsBack
  | .literal v, _ => .literal v
  | .keyed _ _, ⟨hk, hv, h⟩ => .keyed hk hv (Arg.readsBack h)
  | .nested _, h => .nested (Expr.readsBack (by rw [Arg.WellFormed] at h; exact h))

theorem Arg.listReadsBack : ∀ {as : List Arg}, Arg.ListWellFormed as → Arg.ListReadsBack as
  | [], _ => Arg.listReadsBack_nil
  | _ :: _, ⟨h, hs⟩ => Arg.listReadsBack_cons (Arg.readsBack h) (Arg.listReadsBack hs)

end

/-! ## The whole text -/

/-- The text of a well-formed expression denotes it with its operands in parentheses. -/
theorem Expr.parse_render_eq {e : Expr} (h : e.WellFormed) : parse e.render = .ok e.grouped := by
  obtain ⟨ts, o, hsteps, hts⟩ := Expr.readsBack h [] breaks_nil 0
  rw [List.append_nil] at hsteps
  obtain ⟨htokens, -⟩ := hsteps.properTokens_eq rfl
  rw [parse_eq_ok_iff, htokens]
  exact hts.pipe

/-- An expression with its operands in parentheses is equivalent to the one without, both ways. -/
theorem Expr.equivalent_grouped (e : Expr) :
    e.equivalent e.grouped = true ∧ e.grouped.equivalent e = true := by
  rw [Expr.equivalent_iff, Expr.equivalent_iff, Expr.withoutGroups_grouped]
  exact ⟨rfl, rfl⟩

/-- Every expression that a text denotes is well-formed. The text of a well-formed expression
    denotes the same expression with parentheses around every operand of an infix operator that has
    none. The two are equivalent and have the same text, and they are the same expression when every
    operand was in parentheses. -/
theorem parse_render :
    (∀ text e, parse text = .ok e → e.WellFormed) ∧
      ∀ e : Expr, e.WellFormed →
        parse e.render = .ok e.grouped ∧
          e.equivalent e.grouped = true ∧ e.grouped.equivalent e = true ∧
          e.grouped.render = e.render ∧
          (e.OperandsGrouped → e.grouped = e) := by
  refine ⟨fun _ _ => wellFormed_of_parse, fun e h => ⟨Expr.parse_render_eq h, ?_⟩⟩
  obtain ⟨hto, hfrom⟩ := e.equivalent_grouped
  exact ⟨hto, hfrom, e.render_grouped, Expr.grouped_of_operandsGrouped⟩

/-- A sum inside a keyword: its quoted operand gets parentheses, and then nothing changes. -/
theorem parse_render_sum :
    parse "f k=((\"a b\") + (g))" = .ok (.command "f" [.keyed "k" (.nested
        (.binary (.group (.literal "a b")) "+" (.group (.command "g" []))))]) ∧
      (Expr.command "f" [.keyed "k" (.nested
        (.binary (.group (.literal "a b")) "+" (.group (.command "g" []))))]).WellFormed ∧
      (Expr.command "f" [.keyed "k" (.nested
        (.binary (.group (.literal "a b")) "+" (.group (.command "g" []))))]).grouped =
        .command "f" [.keyed "k" (.nested
          (.binary (.group (.literal "a b")) "+" (.group (.command "g" []))))] := by
  obtain ⟨hwf, h⟩ := parse_render
  have hwords : IsWord "f" ∧ IsWord "k" ∧ IsWord "g" := by decide +kernel
  have hsum : (Expr.command "f" [.keyed "k" (.nested
      (.binary (.literal "a b") "+" (.group (.command "g" []))))]).WellFormed :=
    ⟨hwords.1, ⟨hwords.2.1, rfl, ⟨.add, rfl⟩, trivial, hwords.2.2, trivial⟩, trivial⟩
  -- The tree without the group is written in the same way, so its text is read as the grouped one.
  obtain ⟨hback, -, -, -, -⟩ := h _ hsum
  obtain ⟨-, -, -, -, hsame⟩ := h _ (hwf _ _ hback)
  have htext : (Expr.command "f" [.keyed "k" (.nested (.binary (.literal "a b") "+"
      (.group (.command "g" []))))]).render = "f k=((\"a b\") + (g))" := by
    decide +kernel
  rw [htext] at hback
  refine ⟨hback, hwf _ _ hback, hsame ?_⟩
  exact ⟨⟨⟨rfl, trivial⟩, rfl, trivial⟩, trivial⟩

end Tapestry
