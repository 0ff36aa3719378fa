import Tapestry.Proofs.Numbering

/-!
# The order of operands

Both operands of an infix operator are evaluated on the same input, the left one first. When the
right one names no handle and saves no file, it does not matter what was evaluated before it: its
image is the same, only the handles inside have other numbers. So the image of an infix expression
is a function of the images of its operands, and what an operator does to channel values decides
whether operands can be swapped or grouped in another way.

## Key results

- `Operator.channel_comm`, `Operator.channel_assoc`: the laws of channel values
- `Expr.image?_binary`: the image of an infix expression from those of its operands
- `image?_operands_rearranged`: which operators allow to swap operands, and which to regroup them
-/

namespace Tapestry

/-! ## Channels and colours -/

namespace Operator

/-- The larger byte is the larger number. -/
private theorem toNat_max (a b : UInt8) : (max a b).toNat = max a.toNat b.toNat := by
  have hmax : max a b = if a ≤ b then b else a := rfl
  have hle : a ≤ b ↔ a.toNat ≤ b.toNat := UInt8.le_iff_toNat_le
  rw [hmax]
  by_cases h : a ≤ b
  · have hle' : a.toNat ≤ b.toNat := hle.1 h
    rw [if_pos h]
    omega
  · have hlt : ¬ a.toNat ≤ b.toNat := mt hle.2 h
    rw [if_neg h]
    omega

/-- A sum stops at the largest channel value. -/
private theorem toNat_channel_add (a b : UInt8) :
    (add.channel a b).toNat = min 255 (a.toNat + b.toNat) := by
  have hlt : min 255 (a.toNat + b.toNat) < UInt8.size := by
    simp only [UInt8.size]
    omega
  rw [channel, UInt8.toNat_ofNat_of_lt' hlt]

/-- The channels of these operators may be swapped. -/
theorem channel_comm {o : Operator} (ho : o ∈ [xor, add, mul]) (a b : UInt8) :
    o.channel a b = o.channel b a := by
  simp only [List.mem_cons, List.not_mem_nil, or_false] at ho
  rcases ho with rfl | rfl | rfl
  · exact UInt8.xor_comm a b
  · rw [channel, channel, Nat.add_comm]
  · rw [channel, channel, Nat.mul_comm]

/-- The channels of exclusive or and of addition, which stops at the largest channel, may be
    regrouped. -/
theorem channel_assoc {o : Operator} (ho : o ∈ [xor, add]) (a b c : UInt8) :
    o.channel (o.channel a b) c = o.channel a (o.channel b c) := by
  simp only [List.mem_cons, List.not_mem_nil, or_false] at ho
  rcases ho with rfl | rfl
  · exact UInt8.xor_assoc a b c
  · -- Whichever sum is cut first, the whole is cut at the same value.
    apply UInt8.toNat_inj.1
    simp only [toNat_channel_add]
    omega

/-- The opacity of the result is that of the more opaque colour, in either order. -/
theorem colour_comm {o : Operator} (ho : o ∈ [xor, add, mul]) (a b : Colour) :
    o.colour a b = o.colour b a := by
  have halpha : max a.alpha b.alpha = max b.alpha a.alpha := by
    apply UInt8.toNat_inj.1
    rw [toNat_max, toNat_max, Nat.max_comm]
  simp only [colour, channel_comm ho a.red, channel_comm ho a.green, channel_comm ho a.blue,
    halpha]

/-- Operators work channel by channel, so what holds of channels holds of colours. -/
theorem colour_assoc {o : Operator} (ho : o ∈ [xor, add]) (a b c : Colour) :
    o.colour (o.colour a b) c = o.colour a (o.colour b c) := by
  have halpha : max (max a.alpha b.alpha) c.alpha = max a.alpha (max b.alpha c.alpha) := by
    apply UInt8.toNat_inj.1
    simp only [toNat_max, Nat.max_assoc]
  simp only [colour, channel_assoc ho, halpha]

end Operator

/-! ## Images -/

namespace Image

variable {f : Colour → Colour → Colour} {a b c : Image}

/-- Images of the same size can be swapped when their colours can. -/
theorem map₂_comm (hf : ∀ x y, f x y = f y x) (h : a.SameSize b) : map₂ f a b = map₂ f b a := by
  refine ext_pixel (a := map₂ f a b) (b := map₂ f b a) h.1 h.2 fun x y hx hy => ?_
  have ha : a.Inside x y := ⟨hx, hy⟩
  have hb : b.Inside x y := ⟨h.1 ▸ hx, h.2 ▸ hy⟩
  rw [pixel_map₂ f b ha, pixel_map₂ f a hb, hf]

/-- Images of the same size can be regrouped when their colours can. -/
theorem map₂_assoc (hf : ∀ x y z, f (f x y) z = f x (f y z)) (h : a.SameSize b) :
    map₂ f (map₂ f a b) c = map₂ f a (map₂ f b c) := by
  refine ext_pixel (a := map₂ f (map₂ f a b) c) (b := map₂ f a (map₂ f b c)) rfl rfl
    fun x y hx hy => ?_
  have ha : a.Inside x y := ⟨hx, hy⟩
  have hab : (map₂ f a b).Inside x y := ⟨hx, hy⟩
  have hb : b.Inside x y := ⟨h.1 ▸ hx, h.2 ▸ hy⟩
  rw [pixel_map₂ f c hab, pixel_map₂ f b ha, pixel_map₂ f _ ha, pixel_map₂ f c hb, hf]

end Image

/-- The image that an operator makes of two images; there is none when their sizes differ. -/
def Operator.combine? (o : Operator) (a b : Image) : Option Image :=
  if a.SameSize b then some (Image.map₂ o.colour a b) else none

namespace Operator

/-- Images of one size are combined in either order; those of different sizes in none. -/
private theorem combine?_comm {o : Operator} (ho : o ∈ [xor, add, mul]) (a b : Image) :
    o.combine? a b = o.combine? b a := by
  have hsymm : b.SameSize a ↔ a.SameSize b := by
    rw [Image.SameSize, Image.SameSize, eq_comm, eq_comm (a := b.height)]
  by_cases h : a.SameSize b
  · rw [combine?, combine?, if_pos h, if_pos (hsymm.2 h), Image.map₂_comm (colour_comm ho) h]
  · rw [combine?, combine?, if_neg h, if_neg (mt hsymm.1 h)]

/-- Three images have a result in either grouping when all three have the same size. -/
private theorem combine?_assoc {o : Operator} (ho : o ∈ [xor, add]) (a b c : Image) :
    (o.combine? a b).bind (o.combine? · c) = (o.combine? b c).bind (o.combine? a) := by
  have hsizes : a.SameSize b → (a.SameSize c ↔ b.SameSize c) := by
    intro h
    rw [Image.SameSize, Image.SameSize, h.1, h.2]
  -- The sizes decide whether there is an image at all: both sides need all three to be the same.
  by_cases hab : a.SameSize b
  · by_cases hbc : b.SameSize c
    · have hleft : (Image.map₂ o.colour a b).SameSize c := (hsizes hab).2 hbc
      have hright : a.SameSize (Image.map₂ o.colour b c) := hab
      simp only [combine?, if_pos hab, if_pos hbc, Option.bind_some, if_pos hleft, if_pos hright,
        Image.map₂_assoc (colour_assoc ho) hab]
    · have hleft : ¬ (Image.map₂ o.colour a b).SameSize c := mt (hsizes hab).1 hbc
      simp only [combine?, if_pos hab, if_neg hbc, Option.bind_some, Option.bind_none,
        if_neg hleft]
  · have hright : ¬ a.SameSize (Image.map₂ o.colour b c) := hab
    by_cases hbc : b.SameSize c
    · simp only [combine?, if_neg hab, if_pos hbc, Option.bind_some, Option.bind_none,
        if_neg hright]
    · simp only [combine?, if_neg hab, if_neg hbc, Option.bind_none]

end Operator

/-! ## Operands -/

/-- Whether an expression can be evaluated anywhere with the same result: no text in it holds the
    start of a handle, and no file is saved in it. -/
structure Expr.Portable (e : Expr) : Prop where
  plain : ∀ s ∈ e.texts, Plain s
  unsaved : "save" ∉ e.commandNames

/-- The image that the built-in commands make of an expression, if they make one. -/
def Expr.image? (e : Expr) (seed : Option Image) (c : Context) : Option Image :=
  value? (e.evaluate .builtins seed c)

namespace Expr

variable {l r : Expr} {seed : Option Image} {c c' : Context}

/-- An evaluation that returns an image has that image. -/
private theorem image?_ok {e : Expr} {image : Image}
    (h : e.evaluate .builtins seed c = .ok image c') : e.image? seed c = some image := by
  rw [image?, h, value?]

/-- One that fails has none. -/
private theorem image?_error {e : Expr} {error : EvalError}
    (h : e.evaluate .builtins seed c = .error error c') : e.image? seed c = none := by
  rw [image?, h, value?]

/-- A portable expression gives the same image in every context, or in none. -/
theorem Portable.image?_eq {e : Expr} (h : e.Portable) (seed : Option Image) (c c' : Context) :
    e.image? seed c = e.image? seed c' := by
  have huniform : Registry.builtins.UniformOn e.commandNames := by
    intro name hname handler hget
    exact Registry.uniform_builtins hget fun hsave => h.unsaved (hsave ▸ hname)
  have hparallel := e.parallel seed c c' h.plain huniform
  rw [image?, image?]
  generalize e.evaluate .builtins seed c = result at hparallel
  generalize e.evaluate .builtins seed c' = result' at hparallel
  cases hparallel with
  | ok _ _ h => exact congrArg some h
  | error _ => rfl

/-- The expression that joins two others, each in parentheses, with an operator. -/
def joined (o : Operator) (l r : Expr) : Expr := binary (group l) o.symbol (group r)

/-- Portable operands make a portable expression. -/
theorem Portable.joined (hl : l.Portable) (hr : r.Portable) (o : Operator) :
    (joined o l r).Portable := by
  have hsymbol : Plain o.symbol := by
    unfold Plain
    cases o <;> decide
  have hcommand : "save" ≠ (Operator.commandOf? o.symbol).getD o.symbol := by
    -- The words of a joined expression are those of both sides and the sign, and its names those of
    -- both and one command.
    cases o <;> decide
  constructor
  · intro s hs
    rw [Expr.joined, texts, List.mem_append, List.mem_cons] at hs
    rcases hs with hs | rfl | hs
    · exact hl.plain s hs
    · exact hsymbol
    · exact hr.plain s hs
  · intro hs
    rw [Expr.joined, commandNames, List.mem_append, List.mem_append, List.mem_singleton] at hs
    rcases hs with (hs | hs) | hs
    · exact hl.unsaved hs
    · exact hr.unsaved hs
    · exact hcommand hs

end Expr

/-! ## Infix expressions -/

/-- The built-in registry has a command for every operator. -/
private theorem lookupOperator_builtins (o : Operator) :
    lookupOperator .builtins o.symbol = pure (o.command, Command.combine o) := by
  cases o <;> rfl

/-- A handle is a positional argument. -/
private theorem Arguments.ofList_handleName (n : Nat) :
    Arguments.ofList [handleName n] = ⟨[handleName n], []⟩ := by
  have hequals := equals_not_mem_of_isHandle (isHandle_handleName n)
  exact Arguments.ofList_positional (List.forall_mem_singleton.2 hequals)

/-- A new handle is read as its image. -/
private theorem Arguments.image_register (t : HandleTable) (image : Image) :
    (Arguments.ofList [(t.register image).1]).image (t.register image).2 0 = .ok image := by
  have hlookup : (t.register image).2.lookup (handleName t.counter) = some image := by
    rw [HandleTable.lookup_register, if_pos rfl]
  have hhandle : (t.register image).1 = handleName t.counter := rfl
  rw [hhandle, Arguments.ofList_handleName, Arguments.image_eq]
  show imageOfText (t.register image).2 (handleName t.counter) = .ok image
  rw [imageOfText, if_pos (isHandle_handleName _), HandleTable.resolve_handleName hlookup]

/-- The command of an operator combines its input with the image behind its argument. -/
private theorem value?_combine (o : Operator) (a b : Image) (c : Context) :
    value? ((registerImage b >>= fun handle =>
      invoke o.command (Command.combine o) [handle] (some a)) c) = o.combine? a b := by
  have hregister : registerImage b c =
      .ok (c.handles.register b).1 { c with handles := (c.handles.register b).2 } := rfl
  rw [bind_ok hregister, invoke]
  simp only [Command.combine, Handler.ofFunction, requireInput, Arguments.image_register,
    Except.ok_bind, Command.requireSameSize, Image.requireSameSize, Operator.combine?]
  -- The operator's handler reads its right operand back from the table it has just been put into.
  by_cases h : a.SameSize b
  · simp only [if_pos h, Except.mapError]
    rfl
  · simp only [if_neg h, Except.mapError]
    rfl

namespace Expr

variable {l m r : Expr}

/-- A group has the image of what is in it. -/
private theorem image?_group (e : Expr) (seed : Option Image) (c : Context) :
    (group e).image? seed c = e.image? seed c := by
  rw [image?, evaluate, image?]

/-- The image of an infix expression is what the operator makes of the images of its operands, if
    both have one. -/
theorem image?_binary (l : Expr) (hr : r.Portable) (o : Operator) (seed : Option Image)
    (c : Context) :
    (binary l o.symbol r).image? seed c =
      (l.image? seed c).bind fun a => (r.image? seed c).bind (o.combine? a) := by
  have hevaluate : (binary l o.symbol r).evaluate .builtins seed =
      l.evaluate .builtins seed >>= fun a => r.evaluate .builtins seed >>= fun b =>
        registerImage b >>= fun handle =>
          invoke o.command (Command.combine o) [handle] (some a) := by
    rw [evaluate, lookupOperator_builtins]
    simp only [pure_bind]
  cases hl : l.evaluate .builtins seed c with
  | error e d =>
    have hfails : (binary l o.symbol r).evaluate .builtins seed c = .error e d := by
      rw [hevaluate, bind_error hl]
    rw [image?_error hfails, image?_error hl, Option.bind_none]
  | ok a d =>
    -- The right operand starts in the context that the left one left, which does not matter to it.
    rw [image?_ok hl, Option.bind_some, hr.image?_eq seed c d]
    cases hr' : r.evaluate .builtins seed d with
    | error e d' =>
      have hfails : (binary l o.symbol r).evaluate .builtins seed c = .error e d' := by
        rw [hevaluate, bind_ok hl, bind_error hr']
      rw [image?_error hfails, image?_error hr', Option.bind_none]
    | ok b d' =>
      rw [image?_ok hr', Option.bind_some, ← value?_combine o a b d', image?, hevaluate,
        bind_ok hl, bind_ok hr']

/-- A group is as portable as what is in it. -/
theorem Portable.group (h : r.Portable) : (group r).Portable := ⟨h.plain, h.unsaved⟩

/-- Parentheses around the operands do not matter. -/
private theorem image?_joined (l : Expr) (hr : r.Portable) (o : Operator) (seed : Option Image)
    (c : Context) :
    (joined o l r).image? seed c =
      (l.image? seed c).bind fun a => (r.image? seed c).bind (o.combine? a) := by
  rw [joined, image?_binary _ hr.group, image?_group, image?_group]

/-- Operands of a commutative operator can be swapped. -/
theorem image?_joined_comm (hl : l.Portable) (hr : r.Portable) {o : Operator}
    (ho : o ∈ [.xor, .add, .mul]) (seed : Option Image) (c : Context) :
    (joined o l r).image? seed c = (joined o r l).image? seed c := by
  rw [image?_joined l hr, image?_joined r hl]
  cases l.image? seed c with
  | none => cases r.image? seed c <;> rfl
  | some a =>
    cases r.image? seed c with
    | none => rfl
    | some b => exact Operator.combine?_comm ho a b

/-- Operands of an associative operator can be regrouped. -/
theorem image?_joined_assoc (hm : m.Portable) (hr : r.Portable) {o : Operator}
    (ho : o ∈ [.xor, .add]) (l : Expr) (seed : Option Image) (c : Context) :
    (joined o (joined o l m) r).image? seed c = (joined o l (joined o m r)).image? seed c := by
  rw [image?_joined _ hr, image?_joined l hm, image?_joined l (hm.joined hr o), image?_joined m hr]
  -- An operand without an image leaves none on either side.
  cases l.image? seed c with
  | none => rfl
  | some a =>
    cases m.image? seed c with
    | none => rfl
    | some b =>
      cases r.image? seed c with
      | none => simp only [Option.bind_some, Option.bind_none, Option.bind_fun_none]
      | some d => exact Operator.combine?_assoc ho a b d

end Expr

open Tapestry.Expr (joined)

/-- Let no text of three expressions hold the start of a handle, and let none of them save a file.
    With the built-in commands and on any seed, two of them joined by `^`, `+` or `*` have the same
    image in either order, in any two contexts, or no image in either; and all three joined by `^`
    or `+` have the same image in either grouping, or none. -/
theorem image?_operands_rearranged {l m r : Expr} (hl : l.Portable) (hm : m.Portable)
    (hr : r.Portable) (seed : Option Image) (c c' : Context) :
    (∀ o ∈ [Operator.xor, .add, .mul],
      (joined o l r).image? seed c = (joined o r l).image? seed c') ∧
    ∀ o ∈ [Operator.xor, .add],
      (joined o (joined o l m) r).image? seed c = (joined o l (joined o m r)).image? seed c' := by
  constructor
  · intro o ho
    rw [Expr.image?_joined_comm hl hr ho, (hr.joined hl o).image?_eq seed c c']
  · intro o ho
    rw [Expr.image?_joined_assoc hm hr ho, (hl.joined (hm.joined hr o) o).image?_eq seed c c']

/-- A product in two contexts that hold different handles. -/
theorem image?_operands_rearranged_product :
    (Expr.command "fill" [.literal "#804020"]).Portable ∧ (Expr.literal "null").Portable ∧
      (joined .mul (.command "fill" [.literal "#804020"]) (.literal "null")).image?
          (some (.solid 1 1 ⟨200, 100, 50, 255⟩)) (.fresh ⟨[], []⟩) =
        (joined .mul (.literal "null") (.command "fill" [.literal "#804020"])).image?
          (some (.solid 1 1 ⟨200, 100, 50, 255⟩)) ⟨⟨[], 7⟩, ⟨[], []⟩, []⟩ := by
  have hfill : (Expr.command "fill" [.literal "#804020"]).Portable := by
    constructor
    · unfold Plain
      decide +kernel
    · decide
  have hnull : (Expr.literal "null").Portable := by
    constructor
    · unfold Plain
      decide +kernel
    · decide
  have hproduct := (image?_operands_rearranged hfill hnull hnull
    (some (.solid 1 1 ⟨200, 100, 50, 255⟩)) (.fresh ⟨[], []⟩) ⟨⟨[], 7⟩, ⟨[], []⟩, []⟩).1 .mul
  exact ⟨hfill, hnull, hproduct (by decide)⟩

end Tapestry
