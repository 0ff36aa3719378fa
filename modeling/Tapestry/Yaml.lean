import Tapestry.Yaml.Scalar

/-!
# YAML documents

The part of YAML that settings are written in: maps and lists, laid out by indentation or between
brackets, and scalars. Anchors, tags, directives, block scalars and explicit keys are not part of
it, and a text that uses one of them is no document. What a manifest may hold does not depend on the
form it was written in; `Manifest.check` decides it.

A reader answers what it read and the place behind it, where less is left to read; that is why
reading ends. Block readers leave out the white space and the comments before the next value;
`least` is the first column that still belongs to the value around.
-/

namespace Tapestry

/-- A YAML value. A scalar keeps whether it was quoted: only a plain one can stand for a number or a
    truth value. -/
inductive Yaml where
  | scalar (quoted : Bool) (text : String)
  | list (items : List Yaml)
  | map (entries : List (Yaml × Yaml))
  deriving Repr, Inhabited

namespace Yaml

/-- The value where none is written. -/
def missing : Yaml := .scalar false ""

/-- What a value between brackets is in a list: itself, or a map of one entry. -/
def itemOf : Yaml × Option Yaml → Yaml
  | (v, none) => v
  | (key, some v) => .map [(key, v)]

/-- What a value between brackets is in a map: a key, whose value may be missing. -/
def memberOf : Yaml × Option Yaml → Yaml × Yaml
  | (key, value) => (key, value.getD missing)

/-! ## Results -/

/-- What was read from a place, and a place with less left to read. -/
abbrev Taken (α : Type) (c : Cursor) : Type :=
  Option { r : α × Cursor // r.2.rest.length < c.rest.length }

/-- What was read from a place, perhaps nothing, and the place behind it. -/
abbrev Optional (α : Type) (c : Cursor) : Type :=
  Option { r : α × Cursor // r.2.rest.length ≤ c.rest.length }

/-- What is made of a value that was read, seen from a place that is not behind the one it was read
    from. -/
def Taken.imp {α β : Type} {c c' : Cursor} (h : c.rest.length ≤ c'.rest.length) (f : α → β) :
    Taken α c → Taken β c'
  | none => none
  | some ⟨(v, next), h'⟩ => some ⟨(f v, next), Nat.lt_of_lt_of_le h' h⟩

/-- A scalar with what is left behind it, seen from a place where more is left. -/
def takeScalar {n : Nat} {c : Cursor} {read? : Option (String × Cursor)} (quoted : Bool)
    (hread : LeavesAtMost n read?) (h : n < c.rest.length) : Taken Yaml c :=
  match read?, hread with
  | none, _ => none
  | some (s, next), hread =>
    some ⟨(.scalar quoted s, next), Nat.lt_of_le_of_lt (hread (s, next) rfl) h⟩

/-! ## Values -/

/-- Whether a text continues with a colon. -/
def atColon (c : Cursor) : Bool := c.rest.head? = some ':'

/-- Whether a colon that ends a key of a block map follows. -/
def atBlockColon (c : Cursor) : Bool :=
  match c.rest with
  | ':' :: cs => atBlank cs
  | _ => false

/-- Where a colon comes next there is something left. -/
private theorem rest_ne_nil_of_atColon {c : Cursor} (h : atColon c = true) : c.rest ≠ [] :=
  Cursor.rest_ne_nil_of_head? (of_decide_eq_true h)

private theorem rest_ne_nil_of_atBlockColon {c : Cursor} (h : atBlockColon c = true) :
    c.rest ≠ [] := by
  intro hnil
  rw [atBlockColon, hnil] at h
  exact Bool.false_ne_true h

mutual

/-- A scalar, or a list or map between brackets. -/
def atom? (bracketed : Bool) (least : Nat) (c : Cursor) : Taken Yaml c :=
  if hrest : c.rest = [] then none
  else
    have hskip : (c.skip 1).rest.length < c.rest.length :=
      Cursor.length_rest_skip_lt Nat.one_pos hrest
    have hinner : ((c.skip 1).gap true).rest.length < c.rest.length :=
      Cursor.length_rest_gap_lt hskip true
    match c.rest with
    | '[' :: _ =>
      (pairs? ']' least ((c.skip 1).gap true)).imp (Nat.le_of_lt hinner)
        fun ps => .list (ps.map itemOf)
    | '\x7b' :: _ =>
      (pairs? '\x7d' least ((c.skip 1).gap true)).imp (Nat.le_of_lt hinner)
        fun ps => .map (ps.map memberOf)
    | '"' :: _ => takeScalar true (doubleQuoted?_leavesAtMost (c.skip 1)) hskip
    | '\'' :: _ => takeScalar true (singleQuoted?_leavesAtMost (c.skip 1)) hskip
    -- What begins with no bracket and no quote may be a plain text.
    | _ =>
      if hstart : startsPlain bracketed c.rest then
        takeScalar false (plain?_leavesAtMost least hstart)
          (List.length_tail ▸ Nat.sub_one_lt_of_lt (List.length_pos_iff.2 hrest))
      else none
termination_by (c.rest.length, 0)

/-- What follows a key between brackets: nothing, or a colon that the key reaches and a value. The
    value may be missing. -/
def valueOf? (key : Cursor) (least : Nat) (c : Cursor) : Optional (Option Yaml) c :=
  if hcolon : atColon c ∧ key.reaches c then
    let start := (c.skip 1).gap true
    have hstart : start.rest.length < c.rest.length :=
      Cursor.length_rest_gap_lt
        (Cursor.length_rest_skip_lt Nat.one_pos (rest_ne_nil_of_atColon hcolon.1)) true
    match start.rest with
    -- A key in brackets may be without its value.
    | ',' :: _ | ']' :: _ | '\x7d' :: _ => some ⟨(some missing, start), Nat.le_of_lt hstart⟩
    | _ =>
      if start.atMarker then none
      else
        match atom? true least start with
        | none => none
        | some ⟨(v, next), h⟩ =>
          some ⟨(some v, next.gap true),
            Nat.le_of_lt (Cursor.length_rest_gap_lt (Nat.lt_trans h hstart) true)⟩
  else some ⟨(none, c), Nat.le_refl _⟩
termination_by (c.rest.length, 0)

/-- What stands between two brackets, up to the one that ends it: values, each of which may be a key
    with a value of its own. -/
def pairs? (closing : Char) (least : Nat) (c : Cursor) : Taken (List (Yaml × Option Yaml)) c :=
  if hend : c.rest.head? = some closing then
    some ⟨([], (c.skip 1).withFresh false),
      Cursor.length_rest_skip_lt Nat.one_pos (Cursor.rest_ne_nil_of_head? hend)⟩
  else if c.atMarker then none
  else
    match atom? true least c with
    | none => none
    | some ⟨(key, after), h⟩ =>
      have hafter : (after.gap true).rest.length < c.rest.length := Cursor.length_rest_gap_lt h true
      match valueOf? c least (after.gap true) with
      | none => none
      | some ⟨(value, next), h'⟩ =>
        have hnext : next.rest.length < c.rest.length := Nat.lt_of_le_of_lt h' hafter
        have hskip : (next.skip 1).rest.length < c.rest.length :=
          Nat.lt_of_le_of_lt (Cursor.length_rest_skip_le 1 next) hnext
        if next.rest.head? = some closing then
          some ⟨([(key, value)], (next.skip 1).withFresh false), hskip⟩
        else if next.rest.head? = some ',' then
          -- A comma may also stand in front of the closing bracket.
          have hmore : ((next.skip 1).gap true).rest.length < c.rest.length :=
            Cursor.length_rest_gap_lt hskip true
          (pairs? closing least ((next.skip 1).gap true)).imp (Nat.le_of_lt hmore)
            ((key, value) :: ·)
        else none
termination_by (c.rest.length, 1)

/-- A value laid out by indentation. Only where a block may begin can it be a block list, or the
    first key of a block map. -/
def block? (least : Nat) (c : Cursor) : Taken Yaml c :=
  if hitem : c.atItem then
    if c.fresh then (blockItems? false c.column c hitem).imp (Nat.le_refl _) .list else none
  else
    match atom? false least c with
    | none => none
    | some ⟨(key, after), h⟩ =>
      let next := after.gap false
      have hnext : next.rest.length < c.rest.length := Cursor.length_rest_gap_lt h false
      -- A value is a key when a colon stands behind it, on the line on which it began.
      if hcolon : atBlockColon next ∧ c.fresh ∧ c.reaches next then
        (blockEntries? c.column key next hcolon.1).imp (Nat.le_of_lt hnext) .map
      else some ⟨(key, next), hnext⟩
termination_by (c.rest.length, 1)

/-- The items of a block list whose signs are in a column. A list that is the value of a key may
    have its signs in the column of the keys; then the next key ends it. -/
def blockItems? (amongKeys : Bool) (column : Nat) (c : Cursor) (hitem : c.atItem) :
    Taken (List Yaml) c :=
  let start := ((c.skip 1).withFresh true).gap false
  have hstart : start.rest.length < c.rest.length :=
    Cursor.length_rest_behind_lt Nat.one_pos (Cursor.rest_ne_nil_of_atItem hitem) true
  let item? : Taken Yaml c :=
    -- The text of an item may begin further down, but only to the right of its dash.
    if start.atEnd || (start.line ≠ c.line && start.column ≤ column) then
      some ⟨(missing, start), hstart⟩
    else (block? (column + 1) start).imp (Nat.le_of_lt hstart) id
  match item? with
  | none => none
  | some ⟨(item, next), h⟩ =>
    if next.atEnd || next.column < column then some ⟨([item], next), h⟩
    else if next.column = column && next.fresh then
      if hitem' : next.atItem then
        (blockItems? amongKeys column next hitem').imp (Nat.le_of_lt h) (item :: ·)
      -- A list that is a value may stand at the column of its key, whose entries go on behind it.
      else if amongKeys then some ⟨([item], next), h⟩
      else none
    else none
termination_by (c.rest.length, 0)

/-- The entries of a block map whose keys are in a column, from the colon behind its first key. -/
def blockEntries? (column : Nat) (key : Yaml) (c : Cursor) (hcolon : atBlockColon c) :
    Taken (List (Yaml × Yaml)) c :=
  let start := ((c.skip 1).withFresh false).gap false
  have hstart : start.rest.length < c.rest.length :=
    Cursor.length_rest_behind_lt Nat.one_pos (rest_ne_nil_of_atBlockColon hcolon) false
  let value? : Taken Yaml c :=
    if start.atEnd then some ⟨(missing, start), hstart⟩
    else if start.line = c.line || column < start.column then
      (block? (column + 1) start).imp (Nat.le_of_lt hstart) id
    -- A list may have its signs in the column of the key it belongs to.
    else if hitem : start.column = column ∧ start.atItem then
      (blockItems? true column start hitem.2).imp (Nat.le_of_lt hstart) .list
    else some ⟨(missing, start), hstart⟩
  match value? with
  | none => none
  | some ⟨(value, next), h⟩ =>
    if next.atEnd || next.column < column then some ⟨([(key, value)], next), h⟩
    else if next.column = column && next.fresh && !next.atItem then
      match atom? false (column + 1) next with
      | none => none
      | some ⟨(key', after), h'⟩ =>
        let colon := after.gap false
        have hafter : colon.rest.length < c.rest.length :=
          Cursor.length_rest_gap_lt (Nat.lt_trans h' h) false
        if hcolon' : atBlockColon colon ∧ next.reaches colon then
          (blockEntries? column key' colon hcolon'.1).imp (Nat.le_of_lt hafter)
            ((key, value) :: ·)
        else none
    else none
termination_by (c.rest.length, 0)

end

/-! ## Documents -/

/-- The value of a document from its first line on, behind the marker that may begin it. -/
def root? (c : Cursor) : Option (Yaml × Cursor) :=
  let start := if c.atSign '-' then ((c.skip 3).withFresh false).gap false else c
  if start.rest.isEmpty || start.atMarker then
    if c.atSign '-' || c.rest.isEmpty then some (missing, start) else none
  else (block? 0 start).map (·.1)

/-- Whether nothing but end markers follows a document. -/
def finished (c : Cursor) : Bool :=
  if hend : c.atSign '.' then
    have : (((c.skip 3).withFresh false).gap false).rest.length < c.rest.length :=
      Cursor.length_rest_behind_lt (Nat.succ_pos 2) (Cursor.rest_ne_nil_of_atSign hend) false
    finished (((c.skip 3).withFresh false).gap false)
  else c.rest.isEmpty
termination_by c.rest.length

/-- Read a text as one document. A text of comments alone is a missing value; `none` when the text
    is no document. -/
def read? (s : String) : Option Yaml :=
  match Cursor.ofText? s with
  | none => none
  | some c =>
    match root? (c.gap false) with
    | none => none
    | some (v, next) => if finished (next.gap false) then some v else none

end Yaml

end Tapestry
