import FrozenGlobals.Analysis
import FrozenGlobals.Proofs.Host.Globals
import FrozenGlobals.Proofs.Number.Decimal

/-!
# Numbers as keys

A number literal used as a key names the property of its text. For whole numbers below a million
that is the decimal text they are read from (`Script.readNumber_toString`), so a member is the same
whether its key is written as a number or as a string. From a million on the text has an exponent,
and the property is another one: `Key.ofNumber_whole`.
-/

namespace FrozenGlobals

open Script (Span Expr Numeral PatternItem PropertyKind)

/-! ## Reading digits -/

namespace Number

open Text (digitValue)

/-- The value of a digit is its distance from zero. -/
theorem digitValue_of_isDigit {c : Char} (h : c.isDigit) : digitValue c = c.toNat - '0'.toNat := by
  unfold digitValue
  rw [if_pos]
  simpa [Char.isDigit, Char.le_def] using h

/-- The value of a digit is less than ten. -/
theorem digitValue_lt {c : Char} (h : c.isDigit) : digitValue c < 10 := by
  have hle : c.toNat ≤ 57 := by
    simp only [Char.isDigit, Bool.and_eq_true, decide_eq_true_eq, UInt32.le_iff_toNat_le] at h
    exact h.2
  rw [digitValue_of_isDigit h]
  have hzero : '0'.toNat = 48 := rfl
  omega

variable {cs : List Char}

/-- A run of digits goes on to the end of a text that consists of digits. -/
theorem digitRun_of_isDigit (h : ∀ c ∈ cs, c.isDigit) : digitRun 10 true cs = (cs, []) := by
  induction cs with
  | nil => rfl
  | cons c cs ih =>
    have hc := digitValue_lt (h c List.mem_cons_self)
    simp [digitRun, hc, ih fun c' hc' => h c' (List.mem_cons_of_mem c hc')]

/-- Digits are not underscores. -/
theorem ne_underscore_of_isDigit {c : Char} (h : c.isDigit) : c ≠ '_' := by
  rintro rfl
  exact absurd h (by decide)

/-- Digits alone are well separated. -/
theorem wellSeparated_of_isDigit (h : ∀ c ∈ cs, c.isDigit) : wellSeparated cs := by
  have hhead : cs.head? ≠ some '_' := fun heq =>
    ne_underscore_of_isDigit (h _ (List.mem_of_head? heq)) rfl
  have hlast : cs.getLast? ≠ some '_' := fun heq =>
    ne_underscore_of_isDigit (h _ (List.mem_of_getLast? heq)) rfl
  simp [wellSeparated, hhead, hlast]

/-- Digits spell the number whose decimal text they are. -/
theorem digitsValue_toDigits (n : Nat) : digitsValue 10 (Nat.toDigits 10 n) = n := by
  have hdigit : ∀ c ∈ Nat.toDigits 10 n, c.isDigit := fun c hc =>
    Nat.isDigit_of_mem_toDigits (by decide) (by decide) hc
  have hfold : ∀ (cs : List Char) (k : Nat), (∀ c ∈ cs, c.isDigit) →
      cs.foldl (fun n c => n * 10 + digitValue c) k = Nat.ofDigitChars 10 cs k := by
    intro cs
    induction cs with
    | nil => exact fun _ _ => rfl
    | cons c cs ih =>
      intro k h
      rw [List.foldl_cons, Nat.ofDigitChars_cons, ih _ fun c' hc' =>
        h c' (List.mem_cons_of_mem c hc'),
        digitValue_of_isDigit (h c List.mem_cons_self), Nat.mul_comm]
  have hfilter : (Nat.toDigits 10 n).filter (· != '_') = Nat.toDigits 10 n :=
    List.filter_eq_self.2 fun c hc => bne_iff_ne.2 (ne_underscore_of_isDigit (hdigit c hc))
  rw [digitsValue, hfilter, hfold _ 0 hdigit, Nat.ofDigitChars_toDigits (by decide) (by decide)]

/-- A whole number is the decimal with its digits and nothing behind the point. -/
theorem decimalValue_toDigits (n : Nat) :
    decimalValue (Nat.toDigits 10 n) [] 0 = Binary64.ofNat n := by
  have hlog : ¬ ((n.log2 : Int) + 1 < -400) := by omega
  simp only [decimalValue, List.filter_nil, List.append_nil, digitsValue_toDigits, List.length_nil,
    Nat.cast_zero, Int.sub_zero, Binary64.ofDecimal, Binary64.ofNat, Int.toNat_zero]
  by_cases hn : n = 0
  · subst hn
    rfl
  · simp [hn, hlog]

end Number

namespace Script

open Number

/-- Only zero begins with the digit zero. -/
theorem head_toDigits {n : Nat} (hn : 0 < n) : (Nat.toDigits 10 n).head? ≠ some '0' := by
  induction n using Nat.strongRecOn with
  | ind n ih =>
    rcases Nat.lt_or_ge n 10 with hlt | hge
    · rw [Nat.toDigits_of_lt_base hlt]
      exact (by decide : ∀ m < 10, 0 < m → [Nat.digitChar m].head? ≠ some '0') n hlt hn
    · have hdiv : 0 < n / 10 := by omega
      rw [Nat.toDigits_of_base_le (by decide) hge, List.head?_append]
      have hrest := ih (n / 10) (by omega) hdiv
      cases hhead : (Nat.toDigits 10 (n / 10)).head? with
      | none => exact absurd (List.head?_eq_none_iff.1 hhead) Nat.toDigits_ne_nil
      | some c =>
        rw [hhead] at hrest
        exact hrest

/-- A number literal that is a decimal text has the number of that text as its value. -/
theorem readNumber_toString (n : Nat) :
    readNumber (toString n).toList = some ⟨some (.ofNat n), (toString n).length⟩ := by
  have hlength : (toString n).length = (Nat.toDigits 10 n).length := by
    rw [← String.length_toList, Nat.toString_eq_repr, Nat.toList_repr]
  rw [hlength, Nat.toString_eq_repr, Nat.toList_repr]
  rcases Nat.eq_zero_or_pos n with rfl | hn
  · rfl
  · have hdigit : ∀ c ∈ Nat.toDigits 10 n, c.isDigit := fun c hc =>
      Nat.isDigit_of_mem_toDigits (by decide) (by decide) hc
    have hrun := digitRun_of_isDigit hdigit
    have hwell := wellSeparated_of_isDigit hdigit
    have hvalue := decimalValue_toDigits n
    have hhead := head_toDigits hn
    generalize Nat.toDigits 10 n = cs at hdigit hrun hwell hvalue hhead
    unfold readNumber
    split
    next => exact absurd rfl hhead
    next => exact absurd (hdigit '.' List.mem_cons_self) (by decide)
    next => simp [hrun, readFraction, readExponent, hwell, hvalue]

end Script

/-! ## Keys -/

namespace Host.Exposure

/-- A part of a container is found under its name. -/
theorem exists_image_mem_getKey {g : Graph} {entries : List (String × Datum)} {c c' : Conversion}
    {made : List Occurrence} {values : List Value} (h : Exposure g entries c c' made values)
    {o : Occurrence} (ho : o ∈ made) {s : Segment} {d : Datum} (hd : (s, d) ∈ o.container.parts) :
    ∃ v, Image g c'.known made d v ∧ v ∈ c'.heap.getKey (.single o.cell) s.toKey := by
  have hcomplete := h.unfolds.complete o ho
  obtain ⟨i, hi⟩ := List.mem_iff_getElem?.1 hd
  have hlt : i < o.parts.length := by
    rw [hcomplete.length_parts]
    exact (List.getElem?_eq_some_iff.1 hi).1
  have hpart : o.parts[i]? = some o.parts[i] := List.getElem?_eq_getElem hlt
  refine ⟨o.parts[i], ?_, ?_⟩
  · have hdatum : (o.container.parts.map (·.2))[i]? = some d := by rw [List.getElem?_map, hi]; rfl
    obtain ⟨hlt', heq⟩ := List.getElem?_eq_some_iff.1 hdatum
    exact heq ▸ (List.forall₂_iff_get.1 hcomplete.images).2 i hlt' hlt
  · have hstep : (s, o.parts[i]) ∈ o.steps := by
      refine List.mem_of_getElem? (i := i) (List.getElem?_zip_eq_some.2 ⟨?_, hpart⟩)
      rw [List.getElem?_map, hi]
      rfl
    have hget := Occurrence.mem_get_contents hcomplete.visible hcomplete.length_parts hstep
    rw [Heap.mem_getKey]
    exact ⟨o.cell, Reference.mem_single.2 rfl, by
      rw [Heap.getKeyOf_of_contents hcomplete.held]
      exact hget⟩

end Host.Exposure

/-- Two expressions that are the same key, wherever a key is written. -/
structure Script.Expr.SameKey (key key' : Expr) : Prop where
  memberKey : ∀ (E : Evaluator) stack, E.memberKey key stack = E.memberKey key' stack
  propertyKey : ∀ (E : Evaluator) computed stack,
    E.propertyKey key computed stack = E.propertyKey key' computed stack

namespace Script.Expr.SameKey

variable {key key' : Expr} (h : key.SameKey key') (E : Evaluator) (span : Span) (object : Expr)
  (stack : Stack)

include h

/-- Members under either key have the same target. -/
theorem memberTarget : E.memberTarget (.bracket span object key) stack =
    E.memberTarget (.bracket span object key') stack := by
  simp only [Evaluator.memberTarget, h.memberKey]

/-- Members under either key are read alike. -/
theorem resolveStep : E.resolveStep (.bracket span object key) stack =
    E.resolveStep (.bracket span object key') stack := by
  simp only [Evaluator.resolveStep, h.memberTarget]
  rfl

/-- Members under either key are assigned to alike. -/
theorem assignTo (value : Operand) (site : Site) :
    E.assignTo (.bracket span object key) value site stack =
      E.assignTo (.bracket span object key') value site stack := by
  simp only [Evaluator.assignTo, h.memberTarget]

/-- Members under either key are updated alike. -/
theorem update (operand : Span) : E.update operand (.bracket span object key) stack =
    E.update operand (.bracket span object key') stack := by
  simp only [Evaluator.update, h.memberTarget]

/-- Members under either key are deleted alike. -/
theorem deleteProperty (operand : Span) :
    E.deleteProperty operand (.bracket span object key) stack =
      E.deleteProperty operand (.bracket span object key') stack := by
  simp only [Evaluator.deleteProperty, h.memberTarget]

/-- Properties under either key are added to an object alike. -/
theorem addProperty (o : ObjectCell) (computed : Bool) (kind : PropertyKind) (value : Expr) :
    E.addProperty stack o (.keyed key computed kind value) =
      E.addProperty stack o (.keyed key' computed kind value) := by
  simp only [Evaluator.addProperty, h.propertyKey]

/-- Properties under either key are read by patterns alike. -/
theorem bindProperty (how : Install) (init : Operand) (computed : Bool) (item : PatternItem) :
    E.bindProperty how init stack (.keyed key computed item) =
      E.bindProperty how init stack (.keyed key' computed item) := by
  simp only [Evaluator.bindProperty, h.propertyKey]

end Script.Expr.SameKey

/-- Literals that name one property are the same key. -/
theorem Script.Expr.sameKey_of_literal {s s' : Span} {value : Option Number.Binary64}
    {text : String}
    (h : Key.ofNumber value = .name text) : SameKey (.number s value) (.string s' text) where
  memberKey E stack := by simp only [Evaluator.memberKey, Key.ofLiteral?, h]
  propertyKey E computed stack := by
    simp only [Evaluator.propertyKey, Evaluator.memberKey, Key.ofLiteral?, h]

/-- A number literal names the property of its decimal text exactly for whole numbers below a
million. For those, a member is read, written, updated, deleted, declared and destructured alike by
number and by text, and a part of a global is found under its number. -/
theorem Key.ofNumber_whole {n : Nat} (h : n < 2 ^ 53) :
    Script.readNumber (toString n).toList = some ⟨some (.ofNat n), (toString n).length⟩ ∧
    (Key.ofNumber (some (.ofNat n)) = .name (toString n) ↔ n < 1000000) ∧
    (n < 1000000 →
      (∀ (s s' : Span) (E : Evaluator) (stack : Stack),
        let number : Expr := .number s (some (.ofNat n))
        let text : Expr := .string s' (toString n)
        (∀ span object, E.resolveStep (.bracket span object number) stack =
          E.resolveStep (.bracket span object text) stack) ∧
        (∀ span object value site, E.assignTo (.bracket span object number) value site stack =
          E.assignTo (.bracket span object text) value site stack) ∧
        (∀ span operand object, E.update span (.bracket operand object number) stack =
          E.update span (.bracket operand object text) stack) ∧
        (∀ span operand object, E.deleteProperty span (.bracket operand object number) stack =
          E.deleteProperty span (.bracket operand object text) stack) ∧
        (∀ o computed kind value, E.addProperty stack o (.keyed number computed kind value) =
          E.addProperty stack o (.keyed text computed kind value)) ∧
        (∀ how init computed item, E.bindProperty how init stack (.keyed number computed item) =
          E.bindProperty how init stack (.keyed text computed item))) ∧
      ∀ {g : Host.Graph} {entries c c' made values},
        Host.Exposure g entries c c' made values →
        ∀ o ∈ made, ∀ d, (.key (toString n), d) ∈ o.container.parts →
          ∃ v, Host.Image g c'.known made d v ∧
            v ∈ c'.heap.getKey (.single o.cell) (.ofNumber (some (.ofNat n)))) := by
  have hiff : Key.ofNumber (some (.ofNat n)) = .name (toString n) ↔ n < 1000000 := by
    rw [← Number.Binary64.text_ofNat_eq_iff h]
    exact ⟨fun heq => Key.name.inj heq, fun heq => congrArg Key.name heq⟩
  refine ⟨Script.readNumber_toString n, hiff, fun hlt => ⟨fun s s' E stack => ?_, ?_⟩⟩
  · have hsame : Expr.SameKey (.number s (some (.ofNat n))) (.string s' (toString n)) :=
      Expr.sameKey_of_literal (hiff.2 hlt)
    exact ⟨fun span object => hsame.resolveStep E span object stack,
      fun span object => hsame.assignTo E span object stack,
      fun span operand object => hsame.update E operand object stack span,
      fun span operand object => hsame.deleteProperty E operand object stack span,
      hsame.addProperty E stack, hsame.bindProperty E stack⟩
  · intro g entries c c' made values hexposure o ho d hd
    rw [hiff.2 hlt]
    exact hexposure.exists_image_mem_getKey ho hd

/-- The largest number that is written in decimal. -/
theorem Key.ofNumber_whole_largest :
    999999 < 2 ^ 53 ∧ Key.ofNumber (some (.ofNat 999999)) = .name "999999" ∧
    ∀ (E : Evaluator) (s s' span : Span) (object : Expr) (stack : Stack),
      E.resolveStep (.bracket span object (.number s (some (.ofNat 999999)))) stack =
        E.resolveStep (.bracket span object (.string s' "999999")) stack := by
  have h : 999999 < 2 ^ 53 := by decide
  obtain ⟨-, hkey, hsame⟩ := Key.ofNumber_whole h
  have hlt : 999999 < 1000000 := by decide
  exact ⟨h, hkey.2 hlt, fun E s s' span object stack =>
    ((hsame hlt).1 s s' E stack).1 span object⟩

/-- The program `o[key].x = 1;`, whose global `o` has a container under the key of a million. -/
def millionth (key : Expr) : Setup where
  options := Options.standard
  programs := #[.ofProgram ⟨"script", "o[1000000].x = 1;",
    [.expression (.assign ⟨0, 16⟩ .plain
      (.leaf (.dot ⟨0, 12⟩ (.bracket ⟨0, 10⟩ (.identifier ⟨"o", ⟨0, 1⟩⟩) key) "x"))
      (.number ⟨15, 16⟩ (some (.ofNat 1))))]⟩]
  graph := ⟨#[.object [("o", .container 1)] false, .object [("1000000", .container 2)] false,
    .object [] false]⟩
  resolver := none
  canceled := false

/-- A million as a number names another property, and the write to the global is missed. -/
theorem millionth_unreported :
    1000000 < 2 ^ 53 ∧
    Key.ofNumber (some (.ofNat 1000000)) = .name "1e+06" ∧
    ((millionth (.number ⟨2, 9⟩ (some (.ofNat 1000000)))).analyze (.container 0)).1.toOption =
      some ⟨[], []⟩ ∧
    ((millionth (.string ⟨2, 9⟩ (toString 1000000))).analyze (.container 0)).1.toOption =
      some ⟨[⟨"Cannot assign to property of global value o.1000000", ⟨0, 16⟩, "o.1000000"⟩], []⟩ :=
  ⟨by decide, by decide +kernel, by decide +kernel, by decide +kernel⟩

end FrozenGlobals
