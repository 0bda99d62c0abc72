import FrozenGlobals.Proofs.Canonical.Parts
import FrozenGlobals.Proofs.Number.Decimal
import FrozenGlobals.Proofs.Text.Brackets
import Mathlib.Data.List.Nodup

/-!
# The texts of leaves

Primitives, intrinsics and built-ins can be told apart by their texts (`Heap.leafText_injective`): a
text in quotes is a string, numbers have no letters but those of `NaN`, `Inf` and exponents, and the
marks `%` and `&` keep native values apart from names. None of them starts like a container.
-/

namespace FrozenGlobals

open Text

/-! ## Numbers -/

namespace Number

/-- Characters of numbers. -/
def isNumberChar (c : Char) : Bool :=
  c.isDigit || ['+', '-', '.', 'e', 'N', 'a', 'I', 'n', 'f'].contains c

/-- Texts made of characters of numbers. -/
def isNumberText (s : String) : Bool := s.toList.all isNumberChar

/-- Texts of numbers one after another are made of characters of numbers. -/
@[simp] theorem isNumberText_append (s t : String) :
    isNumberText (s ++ t) = (isNumberText s && isNumberText t) := by
  simp [isNumberText]

/-- Natural numbers are written with digits. -/
theorem isNumberText_toString (n : Nat) : isNumberText (toString n) = true := by
  refine List.all_eq_true.2 fun c hc => ?_
  rw [Nat.toString_eq_repr, Nat.toList_repr] at hc
  simp [isNumberChar, Nat.isDigit_of_mem_toDigits (by decide) (by decide) hc]

/-- Zeros are characters of numbers. -/
theorem isNumberText_zeros (count : Nat) : isNumberText (zeros count) = true := by
  refine List.all_eq_true.2 fun c hc => ?_
  rw [zeros, String.toList_ofList] at hc
  rw [List.eq_of_mem_replicate hc]
  rfl

/-- A piece of a text has no other characters. -/
theorem isNumberText_ofList {s : String} (hs : isNumberText s = true) {cs : List Char}
    (hcs : cs ⊆ s.toList) : isNumberText (String.ofList cs) = true := by
  refine List.all_eq_true.2 fun c hc => ?_
  rw [String.toList_ofList] at hc
  exact List.all_eq_true.1 hs c (hcs hc)

/-- Exponents are written with a sign and digits. -/
theorem isNumberText_exponentText (e : Int) : isNumberText (exponentText e) = true := by
  have hdigits := isNumberText_toString e.natAbs
  have hpadded : isNumberText ("0" ++ toString e.natAbs) = true := by
    rw [isNumberText_append, hdigits]
    rfl
  have hsign : isNumberText (if e < 0 then "e-" else "e+") = true := by split <;> rfl
  rw [exponentText, isNumberText_append, hsign, Bool.true_and]
  split
  · exact hpadded
  · exact hdigits

/-- Decimals are written with characters of numbers, and at least one of them. -/
theorem Decimal.isNumberText_text (d : Decimal) : isNumberText d.text = true ∧ d.text ≠ "" := by
  have hne : toString d.digits ≠ "" := fun h => by
    have := width_pos d.digits
    rw [width, h] at this
    exact absurd this (by decide)
  have hdigits := isNumberText_toString d.digits
  have hexponent := isNumberText_exponentText (d.point - 1)
  have hpoint : isNumberText "." = true := rfl
  have hzero : isNumberText "0." = true := rfl
  unfold Decimal.text
  simp only
  generalize toString d.digits = digits at hne hdigits ⊢
  have htake : ∀ count, isNumberText (String.ofList (digits.toList.take count)) = true := fun _ =>
    isNumberText_ofList hdigits (List.take_subset _ _)
  have hdrop : ∀ count, isNumberText (String.ofList (digits.toList.drop count)) = true := fun _ =>
    isNumberText_ofList hdigits (List.drop_subset _ _)
  split
  · constructor
    · rw [isNumberText_append, hexponent, Bool.and_true]
      split
      · exact htake 1
      · simp only [isNumberText_append, htake, hdrop, hpoint, Bool.and_self]
    · simp only [exponentText]
      split_ifs <;> simp
  · split
    · simp only [isNumberText_append, hzero, hdigits, isNumberText_zeros, Bool.and_self]
      simp
    · split
      · simp only [isNumberText_append, hdigits, isNumberText_zeros, Bool.and_self]
        simp [hne]
      · simp only [isNumberText_append, htake, hdrop, hpoint, Bool.and_self]
        simp

/-- The text of a number is not empty and has no other characters. -/
theorem Binary64.isNumberText_text (x : Binary64) : isNumberText x.text = true ∧ x.text ≠ "" := by
  cases x with
  | nan => decide
  | infinite negative => cases negative <;> decide
  | finite negative mantissa exponent =>
    have hmagnitude : isNumberText (if mantissa = 0 then "0"
        else (Decimal.shortest mantissa exponent).text) = true ∧
        (if mantissa = 0 then "0" else (Decimal.shortest mantissa exponent).text) ≠ "" := by
      split
      · decide
      · exact Decimal.isNumberText_text _
    unfold Binary64.text
    cases negative with
    | false => exact hmagnitude
    | true =>
      simp only [if_true, isNumberText_append, hmagnitude.1, Bool.and_true]
      exact ⟨rfl, by simp⟩

end Number

/-! ## Native values -/

/-- An intrinsic that has a name. -/
def Intrinsic.Known (i : Intrinsic) : Prop := ∀ code, i ≠ .unknown code

/-- A built-in that has a name. -/
def Builtin.Known (b : Builtin) : Prop := ∀ code, b ≠ .unknown code

/-- Intrinsics that have names have different ones. -/
theorem Intrinsic.render_inj {i j : Intrinsic} (hi : i.Known) (hj : j.Known)
    (h : i.render = j.render) : i = j := by
  cases i <;> cases j <;> first
    | rfl
    | exact absurd rfl (hi _)
    | exact absurd rfl (hj _)
    | exact absurd h (by decide)

/-- The names of intrinsics have no marks. -/
theorem Intrinsic.isMark_of_mem_render {i : Intrinsic} (hi : i.Known) {c : Char}
    (hc : c ∈ i.render.toList) : isMark c = false := by
  refine isMark_of_mem ?_ c hc
  cases i <;> first
    | exact absurd rfl (hi _)
    | decide

namespace Builtin

/-- The text of an entry of the table. -/
def entryText : Builtin × BuiltinOwner × String → String
  | (_, .arrayInstance, name) => "Array.prototype." ++ name
  | (_, .arrayStatic, name) => "Array." ++ name
  | (_, .objectStatic, name) => "Object." ++ name

/-- Every built-in that has a name is in the table. -/
theorem exists_entry {b : Builtin} (hb : b.Known) :
    ∃ entry ∈ table, entry.1 = b ∧ b.render = entryText entry := by
  have hmem : ∃ entry ∈ table, entry.1 = b := by
    cases b <;> first
      | decide
      | exact absurd rfl (hb _)
  unfold render
  split
  next heq => exact ⟨_, List.mem_of_find?_eq_some heq, by simpa using List.find?_some heq, rfl⟩
  next heq => exact ⟨_, List.mem_of_find?_eq_some heq, by simpa using List.find?_some heq, rfl⟩
  next heq => exact ⟨_, List.mem_of_find?_eq_some heq, by simpa using List.find?_some heq, rfl⟩
  next heq =>
    obtain ⟨entry, hentry, rfl⟩ := hmem
    exact absurd (by simp) (List.find?_eq_none.1 heq entry hentry)

/-- The bytes of a text as one number, which is quicker to compare. -/
def textNumber (s : String) : Nat :=
  s.toByteArray.data.toList.foldl (fun n b => 256 * n + b.toNat) 0

/-- No two entries of the table have the same text. -/
theorem nodup_entryText : (table.map entryText).Nodup := by
  have hnumbers : ((table.map entryText).map textNumber).Nodup := by decide +kernel
  exact hnumbers.of_map _

/-- Built-ins that have names have different ones. -/
theorem render_inj {b c : Builtin} (hb : b.Known) (hc : c.Known) (h : b.render = c.render) :
    b = c := by
  obtain ⟨entry, hentry, rfl, htext⟩ := exists_entry hb
  obtain ⟨entry', hentry', rfl, htext'⟩ := exists_entry hc
  rw [List.inj_on_of_nodup_map nodup_entryText hentry hentry' (htext ▸ htext' ▸ h)]

/-- The text of a built-in with a name has no marks. -/
theorem isMark_of_mem_render {b : Builtin} (hb : b.Known) {c : Char} (hc : c ∈ b.render.toList) :
    isMark c = false := by
  have hnames : (table.all fun entry => entry.2.2.toList.all Char.isAlphanum) = true := by
    decide +kernel
  obtain ⟨⟨x, owner, name⟩, hentry, -, htext⟩ := exists_entry hb
  have hname : ∀ c ∈ name.toList, isMark c = false := fun c hc => isMark_eq_false (by decide)
    (List.all_eq_true.1 (List.all_eq_true.1 hnames _ hentry) c hc)
  have hfront : ∀ front ∈ ["Array.prototype.", "Array.", "Object."], ∀ c ∈ front.toList,
      isMark c = false := fun front hmem => isMark_of_mem (List.all_eq_true.1
        (show (["Array.prototype.", "Array.", "Object."].all fun front =>
          front.toList.all fun c => !isMark c) = true by decide) front hmem)
  rw [htext] at hc
  cases owner <;>
    exact (List.mem_append.1 (String.toList_append ▸ hc)).elim (hfront _ (by simp) c) (hname c)

end Builtin

/-! ## Primitives -/

/-- Primitives that are numbers have the text of one. -/
def Primitive.Built : Primitive → Prop
  | .number text => ∃ x : Number.Binary64, text = x.text
  | _ => True

namespace Primitive

/-- The primitives that are neither numbers nor strings. -/
def constants : List Primitive := [.undefined, .null, .bool true, .bool false, .any]

/-- A primitive is a number, a string, or one of a few constants. -/
theorem cases_constants (p : Primitive) :
    (∃ text, p = .number text) ∨ (∃ text, p = .string text) ∨ p ∈ constants := by
  cases p with
  | number text => exact .inl ⟨text, rfl⟩
  | string text => exact .inr (.inl ⟨text, rfl⟩)
  | bool value => cases value <;> exact .inr (.inr (by decide))
  | _ => exact .inr (.inr (by decide))

/-- Constants are no numbers, have no marks, and do not start like a string or a native value. -/
theorem built_of_mem_constants {p : Primitive} (hp : p ∈ constants) :
    Number.isNumberText p.render = false ∧ p.render.toList.head? ≠ some '"' ∧
      p.render.toList ≠ [] ∧ (∀ c ∈ p.render.toList, isMark c = false) ∧
      ∀ c ∈ p.render.toList.head?, c ≠ '%' ∧ c ≠ '&' := by
  have hmarks : (constants.all fun p => p.render.toList.all fun c => !isMark c) = true := by decide
  have hstarts : ∀ p ∈ constants, Number.isNumberText p.render = false ∧
      p.render.toList.head? ∈ [some 'u', some 'n', some 't', some 'f', some '*'] := by decide
  have hstart := hstarts p hp
  refine ⟨hstart.1, ?_, ?_, isMark_of_mem (List.all_eq_true.1 hmarks p hp), ?_⟩
  · rintro h
    simp [h] at hstart
  · rintro h
    simp [h] at hstart
  · intro c hc
    rw [Option.mem_def.1 hc] at hstart
    constructor <;> (rintro rfl; simp at hstart)

/-- Quoted text begins with a quote. -/
theorem head_quote (s : String) : (quote s).toList.head? = some '"' := by
  simp [quote, toList_quotePieces]

/-- Quoted text is not taken for a number. -/
theorem isNumberText_quote (s : String) : Number.isNumberText (quote s) = false := by
  simp [Number.isNumberText, quote, toList_quotePieces, Number.isNumberChar]

/-- Primitives have different texts. -/
theorem render_inj {p q : Primitive} (hp : p.Built) (hq : q.Built) (h : p.render = q.render) :
    p = q := by
  have hnumber : ∀ {text : String} {q : Primitive}, (Primitive.number text).Built →
      text = q.render → q = .number text := by
    rintro text q ⟨x, rfl⟩ h
    obtain ⟨text', rfl⟩ | ⟨text', rfl⟩ | hq := q.cases_constants
    · exact congrArg Primitive.number h.symm
    · have := x.isNumberText_text.1
      rw [h, render, isNumberText_quote] at this
      cases this
    · have := x.isNumberText_text.1
      rw [h, (built_of_mem_constants hq).1] at this
      cases this
  obtain ⟨text, rfl⟩ | ⟨text, rfl⟩ | hp' := p.cases_constants
  · exact (hnumber hp h).symm
  · obtain ⟨text', rfl⟩ | ⟨text', rfl⟩ | hq' := q.cases_constants
    · exact hnumber hq h.symm
    · exact congrArg Primitive.string (quote_injective h)
    · exact absurd (h ▸ head_quote text) (built_of_mem_constants hq').2.1
  · obtain ⟨text', rfl⟩ | ⟨text', rfl⟩ | hq' := q.cases_constants
    · exact hnumber hq h.symm
    · exact absurd (h.symm ▸ head_quote text') (built_of_mem_constants hp').2.1
    · have hconstants : ∀ p ∈ constants, ∀ q ∈ constants, p.render = q.render → p = q := by decide
      exact hconstants p hp' q hq' h

/-- Primitives do not end before they are over, and do not start like a native value or a
container. -/
theorem level_render {p : Primitive} (hp : p.Built) :
    Level p.render.toList ∧ p.render.toList ≠ [] ∧
      ∀ c ∈ p.render.toList.head?, c ≠ '%' ∧ c ≠ '&' ∧ c ≠ '[' ∧ c ≠ '\x7b' := by
  obtain ⟨text, rfl⟩ | ⟨text, rfl⟩ | hp' := p.cases_constants
  · obtain ⟨x, rfl⟩ := hp
    obtain ⟨hchars, hne⟩ := x.isNumberText_text
    have hchar := List.all_eq_true.1 hchars
    refine ⟨level_of_not_isMark fun c hc => isMark_eq_false (by decide) (hchar c hc),
      fun h => hne (String.toList_eq_nil_iff.1 h), fun c hc => ?_⟩
    have hc := hchar c (List.mem_of_mem_head? hc)
    refine ⟨?_, ?_, ?_, ?_⟩ <;> (rintro rfl; exact absurd hc (by decide))
  · refine ⟨level_quotePieces _, by simp [render, quote, toList_quotePieces], fun c hc => ?_⟩
    obtain rfl : '"' = c := Option.some.inj ((head_quote text).symm.trans hc)
    decide
  · obtain ⟨-, -, hne, hmarks, hhead⟩ := built_of_mem_constants hp'
    refine ⟨level_of_not_isMark hmarks, hne, fun c hc => ⟨(hhead c hc).1, (hhead c hc).2, ?_⟩⟩
    have hmark := hmarks c (List.mem_of_mem_head? hc)
    constructor <;> (rintro rfl; exact absurd hmark (by decide))

end Primitive

/-! ## Leaves -/

/-- Leaves with a text of their own: no functions. -/
def Value.IsPlain : Value → Prop
  | .primitive p => p.Built
  | .intrinsic i => i.Known
  | .builtin b => b.Known
  | _ => False

namespace Heap

variable {h h' : Heap} {v w : Value}

/-- Leaves do not end before they are over, and do not start like a container. -/
theorem level_leafText (hv : v.IsPlain) :
    Level (h.leafText v).toList ∧ (h.leafText v).toList ≠ [] ∧
      ∀ c ∈ (h.leafText v).toList.head?, c ≠ '[' ∧ c ≠ '\x7b' := by
  have hnative : ∀ (mark : Char) {t : String}, isMark mark = false →
      (∀ c ∈ t.toList, isMark c = false) → Level (mark :: t.toList) ∧ mark :: t.toList ≠ [] ∧
        ∀ c ∈ (mark :: t.toList).head?, c ≠ '[' ∧ c ≠ '\x7b' := by
    intro mark t hmark ht
    refine ⟨level_of_not_isMark (List.forall_mem_cons.2 ⟨hmark, ht⟩), by simp, fun c hc => ?_⟩
    obtain rfl : mark = c := by simpa using hc
    constructor <;> (rintro rfl; exact absurd hmark (by decide))
  cases v with
  | primitive p =>
    obtain ⟨hlevel, hne, hhead⟩ := Primitive.level_render (p := p) hv
    exact ⟨hlevel, hne, fun c hc => (hhead c hc).2.2⟩
  | intrinsic i =>
    rw [leafText, String.toList_append]
    exact hnative '%' (by decide) fun c => Intrinsic.isMark_of_mem_render hv
  | builtin b =>
    rw [leafText, String.toList_append]
    exact hnative '&' (by decide) fun c => Builtin.isMark_of_mem_render hv
  | _ => exact hv.elim

/-- Different leaves have different texts. -/
theorem leafText_inj (hv : v.IsPlain) (hw : w.IsPlain) (htext : h.leafText v = h'.leafText w) :
    v = w := by
  -- the first character tells the kinds apart
  have hprimitive : ∀ {p : Primitive} {t : String}, p.Built →
      p.render ≠ "%" ++ t ∧ p.render ≠ "&" ++ t := by
    intro p t hp
    have hhead := (Primitive.level_render hp).2.2
    constructor <;> (intro h; rw [h] at hhead; exact absurd hhead (by simp))
  cases v with
  | primitive p =>
    cases w with
    | primitive q => exact congrArg Value.primitive (Primitive.render_inj hv hw htext)
    | intrinsic i => exact absurd htext (hprimitive hv).1
    | builtin b => exact absurd htext (hprimitive hv).2
    | _ => exact hw.elim
  | intrinsic i =>
    cases w with
    | primitive q => exact absurd htext.symm (hprimitive hw).1
    | intrinsic j =>
      exact congrArg Value.intrinsic
        (Intrinsic.render_inj hv hw (String.append_right_inj _ |>.1 htext))
    | builtin b => exact absurd (congrArg String.toList htext) (by simp [leafText])
    | _ => exact hw.elim
  | builtin b =>
    cases w with
    | primitive q => exact absurd htext.symm (hprimitive hw).2
    | intrinsic j => exact absurd (congrArg String.toList htext) (by simp [leafText])
    | builtin c =>
      exact congrArg Value.builtin (Builtin.render_inj hv hw (String.append_right_inj _ |>.1 htext))
    | _ => exact hw.elim
  | _ => exact hv.elim

end Heap

end FrozenGlobals
