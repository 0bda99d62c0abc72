import FrozenGlobals.Number.Decimal
import Mathlib.Tactic.Ring

/-!
# The text of whole numbers

Whole numbers below a million are written in decimal, and larger ones with an exponent. A binary
number that is whole is its own mantissa up to a power of two (`Binary64.ofNat_eq`), the decimals
that read back as it are its own digits with zeros cut off (`onGrid_whole`), and the zeros come back
in the text (`Binary64.text_ofNat_eq_iff`).
-/

namespace FrozenGlobals.Number

/-! ## Widths -/

namespace Decimal

/-- Every number has at least one digit. -/
theorem width_pos (n : Nat) : 0 < width n := Nat.length_repr_pos

/-- A number has at most some number of digits if it is below that power of ten. -/
theorem width_le_iff {n k : Nat} (hk : 0 < k) : width n ≤ k ↔ n < 10 ^ k :=
  Nat.length_repr_le_iff hk

/-- A number is below the power of ten of its width. -/
theorem lt_pow_width (n : Nat) : n < 10 ^ width n := (width_le_iff (width_pos n)).1 le_rfl

/-- A number is at least the power of ten below its width. -/
theorem pow_le_of_lt_width {n k : Nat} (hn : 0 < n) (h : k < width n) : 10 ^ k ≤ n := by
  rcases Nat.eq_zero_or_pos k with rfl | hk
  · exact hn
  · exact Nat.le_of_not_lt fun hlt => absurd ((width_le_iff hk).2 hlt) (Nat.not_le_of_lt h)

/-- The width of a number lies between two powers of ten. -/
theorem width_eq {n k : Nat} (hlow : 10 ^ k ≤ n) (hhigh : n < 10 ^ (k + 1)) : width n = k + 1 := by
  refine Nat.le_antisymm ((width_le_iff (Nat.succ_pos k)).2 hhigh) (Nat.le_of_not_lt fun hlt => ?_)
  have hle : n < 10 ^ k := by
    rcases Nat.eq_zero_or_pos k with rfl | hk
    · exact absurd (width_pos n) (by omega)
    · exact (width_le_iff hk).1 (by omega)
  exact absurd hlow (Nat.not_le_of_lt hle)

/-- A power of ten appends zeros. -/
theorem toString_mul_pow {m : Nat} (hm : 0 < m) (t : Nat) :
    toString (m * 10 ^ t) = toString m ++ zeros t := by
  induction t with
  | zero => simp [zeros]
  | succ t ih =>
    have hpos : 0 < m * 10 ^ t := Nat.mul_pos hm (Nat.pow_pos (by decide))
    have hmul : m * 10 ^ (t + 1) = m * 10 ^ t * 10 := by ring
    have hge : 10 ≤ m * 10 ^ t * 10 := by omega
    simp only [Nat.toString_eq_repr] at ih ⊢
    rw [hmul, Nat.repr_eq_repr_append_repr hge, Nat.mul_div_cancel _ (by decide), ih,
      Nat.mul_mod_left, String.append_assoc]
    simp [zeros, List.replicate_succ', String.ofList_append]
    rfl

/-- A power of ten adds as many digits as it has zeros. -/
theorem width_mul_pow {m : Nat} (hm : 0 < m) (t : Nat) : width (m * 10 ^ t) = width m + t := by
  rw [width, toString_mul_pow hm, width]
  simp [zeros]

/-- Cutting zeros off leaves a number that zeros complete. -/
theorem stripZeros_spec (fuel : Nat) {n : Nat} (hn : 0 < n) :
    0 < stripZeros fuel n ∧ ∃ t, n = stripZeros fuel n * 10 ^ t := by
  induction fuel generalizing n with
  | zero => exact ⟨hn, 0, by simp [stripZeros]⟩
  | succ fuel ih =>
    rw [stripZeros]
    split
    next h =>
      obtain ⟨hpos, t, ht⟩ := ih (n := n / 10) (by omega)
      refine ⟨hpos, t + 1, ?_⟩
      calc n = n / 10 * 10 := by omega
        _ = stripZeros fuel (n / 10) * 10 ^ t * 10 := by rw [← ht]
        _ = stripZeros fuel (n / 10) * 10 ^ (t + 1) := by ring
    next => exact ⟨hn, 0, by simp⟩

/-! ## The digits of whole numbers -/

/-- The point of a whole number stands behind its digits. -/
theorem pointOf_mul {n den : Nat} (hn : 0 < n) (hden : 0 < den) :
    pointOf (n * den) den = width n := by
  have hle : width den ≤ width (n * den) := by
    refine (width_le_iff (width_pos _)).2 (lt_of_le_of_lt ?_ (lt_pow_width (n * den)))
    exact Nat.le_mul_of_pos_left den hn
  obtain ⟨k, hk⟩ := Nat.le.dest hle
  have hguess : (width (n * den) : Int) - (width den : Int) = (k : Int) := by omega
  have hbelow : n * den < den * 10 ^ k ↔ n < 10 ^ k := by
    rw [Nat.mul_comm n den]
    exact Nat.mul_lt_mul_left hden
  rw [pointOf, hguess]
  simp only [Int.natCast_nonneg, if_true, Int.toNat_natCast, Nat.pow_eq, decide_eq_true_eq, hbelow]
  split
  next hlt =>
    -- below ten to the guess: the number has one digit less than that power
    obtain ⟨j, rfl⟩ : ∃ j, k = j + 1 := ⟨k - 1, by rcases k with _ | k <;> simp at hlt ⊢; omega⟩
    have hlow : 10 ^ (j + width den) ≤ n * den :=
      pow_le_of_lt_width (Nat.mul_pos hn hden) (by omega)
    have hden' : n * den < n * 10 ^ width den := Nat.mul_lt_mul_of_pos_left (lt_pow_width den) hn
    have hj : 10 ^ j ≤ n := by
      refine Nat.le_of_mul_le_mul_right (c := 10 ^ width den) ?_ (Nat.pow_pos (by decide))
      rw [← pow_add]
      exact (lt_of_le_of_lt hlow hden').le
    rw [width_eq hj hlt]
  next hge =>
    have hhigh : n * den < 10 ^ (k + 1) * den := by
      calc n * den < 10 ^ width (n * den) := lt_pow_width _
        _ = 10 ^ (k + 1) * 10 ^ (width den - 1) := by
          rw [← pow_add]
          congr 1
          have := width_pos den
          omega
        _ ≤ 10 ^ (k + 1) * den :=
          Nat.mul_le_mul_left _ (pow_le_of_lt_width hden (by have := width_pos den; omega))
    rw [width_eq (Nat.le_of_not_lt hge) (Nat.lt_of_mul_lt_mul_right hhigh)]
    simp

/-- Decimals with fewer digits read back as a whole number only if they are equal to it. -/
theorem onGrid_whole {closed : Bool} {n low high den w count : Nat} (hlow : n * den - 2 ≤ low)
    (hlow' : low < n * den) (hhigh : high = n * den + 2) (hden : 2 < den) (hcount : count ≤ w) :
    onGrid closed low (n * den) high den w count =
      if 10 ^ (w - count) ∣ n then some (n / 10 ^ (w - count)) else none := by
  obtain ⟨j, rfl⟩ := Nat.le.dest hcount
  have hshift : ((count + j : Nat) : Int) - (count : Int) = (j : Int) := by omega
  have hpos : 0 < 10 ^ j := Nat.pow_pos (by decide)
  have hfloor : n * den / (den * 10 ^ j) = n / 10 ^ j := by
    rw [Nat.mul_comm n den, Nat.mul_div_mul_left _ _ (by omega)]
  -- a multiple of the grid is within the gap only when it is the number itself
  have hnear : ∀ c, low ≤ c * (den * 10 ^ j) → c * (den * 10 ^ j) ≤ high → c * 10 ^ j = n := by
    intro c h₁ h₂
    have hc : c * (den * 10 ^ j) = c * 10 ^ j * den := by ring
    rw [hc] at h₁ h₂
    rcases Nat.lt_trichotomy (c * 10 ^ j) n with hlt | heq | hgt
    · have : (c * 10 ^ j + 1) * den ≤ n * den := Nat.mul_le_mul_right _ hlt
      rw [Nat.add_mul] at this
      omega
    · exact heq
    · have : (n + 1) * den ≤ c * 10 ^ j * den := Nat.mul_le_mul_right _ hgt
      rw [Nat.add_mul] at this
      omega
  have hself : ∀ c, c * 10 ^ j = n → c * (den * 10 ^ j) = n * den := by
    rintro c rfl
    ring
  have hinside : ∀ c, (if closed then decide (low ≤ c * (den * 10 ^ j)) &&
      decide (c * (den * 10 ^ j) ≤ high)
      else decide (low < c * (den * 10 ^ j)) && decide (c * (den * 10 ^ j) < high)) =
        decide (c * 10 ^ j = n) := by
    intro c
    by_cases hc : c * 10 ^ j = n
    · rw [hself c hc, hhigh]
      simp [hc, hlow', hlow'.le]
    · have hnot := mt (fun h : _ ∧ _ => hnear c h.1 h.2) hc
      have hnot' := mt (fun h : _ ∧ _ => hnear c (Nat.le_of_lt h.1) (Nat.le_of_lt h.2)) hc
      split <;> simp_all
  have hnext : (n / 10 ^ j + 1) * 10 ^ j ≠ n := by
    have := Nat.lt_div_mul_add (a := n) hpos
    rw [Nat.add_mul]
    omega
  simp only [onGrid, hshift, tenRatio, Int.natCast_nonneg, if_true, Int.toNat_natCast, Nat.pow_eq,
    hfloor, hinside, hnext, Nat.add_sub_cancel_left, decide_false]
  by_cases hdvd : 10 ^ j ∣ n
  · simp [hdvd, Nat.div_mul_cancel hdvd]
  · have : n / 10 ^ j * 10 ^ j ≠ n := fun h => hdvd ⟨n / 10 ^ j, by rw [Nat.mul_comm]; exact h.symm⟩
    simp [hdvd, this]

/-- The first result of a search is that of the first element that has one. -/
theorem findSome?_eq_bind_find? {α β : Type} (f : α → Option β) (l : List α) :
    l.findSome? f = (l.find? fun a => (f a).isSome).bind f := by
  induction l with
  | nil => rfl
  | cons a l ih =>
    cases ha : f a with
    | none => simp [ha, ih]
    | some b => simp [ha]

/-- The search for a shortest decimal of a whole number ends with digits that zeros complete. -/
theorem first_onGrid {closed : Bool} {n low high den : Nat} (hw : width n ≤ 18)
    (hlow : n * den - 2 ≤ low) (hlow' : low < n * den) (hhigh : high = n * den + 2)
    (hden : 2 < den) :
    ∃ i < width n, 10 ^ (width n - (i + 1)) ∣ n ∧
      onGrid closed low (n * den) high den (width n) (i + 1) =
        some (n / 10 ^ (width n - (i + 1))) ∧
      (List.range 18).find? (fun i =>
        (onGrid closed low (n * den) high den (width n) (i + 1)).isSome) = some i := by
  have hgrid : ∀ i < width n, onGrid closed low (n * den) high den (width n) (i + 1) =
      if 10 ^ (width n - (i + 1)) ∣ n then some (n / 10 ^ (width n - (i + 1))) else none :=
    fun i hi => onGrid_whole hlow hlow' hhigh hden hi
  have hwidth := width_pos n
  -- all digits are enough
  have hlast : (onGrid closed low (n * den) high den (width n) (width n - 1 + 1)).isSome := by
    rw [hgrid _ (by omega), Nat.sub_add_cancel hwidth]
    simp
  cases hfind : (List.range 18).find? (fun i =>
      (onGrid closed low (n * den) high den (width n) (i + 1)).isSome) with
  | none =>
    rw [List.find?_eq_none] at hfind
    exact absurd hlast (hfind (width n - 1) (List.mem_range.2 (by omega)))
  | some i =>
    obtain ⟨hsome, -, hbefore⟩ := List.find?_range_eq_some.1 hfind
    have hi : i < width n := by
      by_contra hge
      have := hbefore (width n - 1) (by omega)
      simp [hlast] at this
    have hdvd : 10 ^ (width n - (i + 1)) ∣ n := by
      by_contra hnot
      simp [hgrid i hi, hnot] at hsome
    exact ⟨i, hi, hdvd, by rw [hgrid i hi, if_pos hdvd], rfl⟩

/-- The shortest decimal of a whole number: its digits, less zeros that the point accounts for. -/
theorem shortest_whole {n k : Nat} (hn : 0 < n) (hw : width n ≤ 18) :
    ∃ m t, 0 < m ∧ n = m * 10 ^ t ∧ shortest (n * 2 ^ k) (-k : Int) = ⟨m, width n⟩ := by
  have hden : 2 < 2 ^ (k + 2) := by
    have : 0 < 2 ^ k := Nat.pow_pos (by decide)
    rw [pow_add]
    omega
  have hvalue : 4 * (n * 2 ^ k) = n * 2 ^ (k + 2) := by ring
  have hratio : shiftRatio (4 * (n * 2 ^ k)) 1 (2 - -k) = (n * 2 ^ (k + 2), 2 ^ (k + 2)) := by
    have hs : (2 : Int) - -k = ((k + 2 : Nat) : Int) := by omega
    rw [hs, shiftRatio, if_pos (Int.natCast_nonneg _), Int.toNat_natCast, hvalue]
    simp
  have hunit : n * 2 ^ (k + 2) / (4 * (n * 2 ^ k)) = 1 := by
    rw [hvalue]
    exact Nat.div_self (Nat.mul_pos hn (by omega))
  have hpoint := pointOf_mul hn (lt_trans (by decide) hden)
  have hle : 2 ^ (k + 2) ≤ n * 2 ^ (k + 2) := Nat.le_mul_of_pos_left _ hn
  unfold shortest
  generalize hgap : (if n * 2 ^ k = Nat.pow 2 52 ∧ -1074 < (-k : Int) then 1 else 2) = gap
  simp only [hratio, hunit, hpoint, Nat.mul_one, findSome?_eq_bind_find?]
  have hgap' : gap = 1 ∨ gap = 2 := by
    rw [← hgap]
    split <;> simp
  have hlow : n * 2 ^ (k + 2) - 2 ≤ n * 2 ^ (k + 2) - gap := by omega
  obtain ⟨i, hi, hdvd, hdigits, hfind⟩ :=
    @first_onGrid (decide (n * 2 ^ k % 2 = 0)) _ _ _ _ hw hlow (by omega) rfl hden
  have hn' : n / 10 ^ (width n - (i + 1)) * 10 ^ (width n - (i + 1)) = n := Nat.div_mul_cancel hdvd
  have hpos : 0 < n / 10 ^ (width n - (i + 1)) := Nat.div_pos (Nat.le_of_dvd hn hdvd)
    (Nat.pow_pos (by decide))
  have hwidth := width_mul_pow hpos (width n - (i + 1))
  rw [hn'] at hwidth
  obtain ⟨hm, t, ht⟩ := stripZeros_spec (width (n / 10 ^ (width n - (i + 1)))) hpos
  refine ⟨_, t + (width n - (i + 1)), hm, ?_, ?_⟩
  · rw [pow_add, ← Nat.mul_assoc, ← ht, hn']
  · rw [hfind, Option.bind_some, hdigits, Option.getD_some]
    simp only [if_neg (show ¬ width (n / 10 ^ (width n - (i + 1))) > i + 1 by omega)]

/-- A decimal whose point stands behind its digits is written out up to a million. -/
theorem text_of_mul_pow {m t : Nat} (hm : 0 < m) (h : m * 10 ^ t < 1000000) :
    text ⟨m, width (m * 10 ^ t)⟩ = toString (m * 10 ^ t) := by
  have hw : width (m * 10 ^ t) ≤ 6 := (width_le_iff (by decide)).2 h
  have hpos := width_pos (m * 10 ^ t)
  have heq := width_mul_pow hm t
  have hlen : ((toString m).length : Int) = width m := rfl
  rw [text]
  simp only [hlen]
  rw [if_neg (by omega), if_neg (by omega), if_pos (by omega), toString_mul_pow hm, heq]
  congr 2
  omega

/-- A number that reaches a power of ten has more digits than that. -/
theorem pow_lt_of_width {n k : Nat} (h : 10 ^ k ≤ n) : k < width n := by
  rcases Nat.eq_zero_or_pos k with rfl | hk
  · exact width_pos n
  · exact Nat.lt_of_not_le fun hle => absurd h (Nat.not_le_of_lt ((width_le_iff hk).1 hle))

/-- A decimal whose point stands further back is written with an exponent. -/
theorem mem_text_of_lt {d : Decimal} (h : 6 < d.point) : 'e' ∈ (text d).toList := by
  have hmem : 'e' ∈ (exponentText (d.point - 1)).toList := by
    unfold exponentText
    rw [if_neg (by omega)]
    simp
  rw [text]
  simp only [if_pos (show d.point - 1 < -4 ∨ 6 ≤ d.point - 1 by omega), String.toList_append]
  exact List.mem_append_right _ hmem

end Decimal

/-! ## Whole numbers as binary numbers -/

namespace Binary64

/-- Dividing by one rounds nothing. -/
theorem roundDiv_one (n : Nat) : roundDiv n 1 = n := by simp [roundDiv, Nat.mod_one]

/-- A negative shift multiplies the numerator. -/
theorem shiftRatio_neg (num den k : Nat) :
    shiftRatio num den (-k : Int) = (num * 2 ^ k, den) := by
  rcases Nat.eq_zero_or_pos k with rfl | hk
  · simp [shiftRatio]
  · rw [shiftRatio, if_neg (by omega), Int.neg_neg, Int.toNat_natCast, Nat.pow_eq]

/-- A whole number that the mantissa has bits for is represented exactly. -/
theorem ofNat_eq {n : Nat} (hn : 0 < n) (h : n < 2 ^ 53) :
    ofNat n = .finite false (n * 2 ^ (52 - n.log2)) (-(52 - n.log2 : Nat) : Int) := by
  have hlog : n.log2 < 53 := (Nat.log2_lt (by omega)).2 h
  obtain ⟨k, hk⟩ : ∃ k, k + n.log2 = 52 := ⟨52 - n.log2, by omega⟩
  have hexponent : 52 - n.log2 = k := by omega
  have hpos : 0 < n * 2 ^ k := Nat.mul_pos hn (Nat.pow_pos (by decide))
  have hlow : 2 ^ 53 ≤ n * 2 ^ (k + 1) := by
    calc 2 ^ 53 = 2 ^ n.log2 * 2 ^ (k + 1) := by rw [← pow_add]; congr 1; omega
      _ ≤ n * 2 ^ (k + 1) := Nat.mul_le_mul_right _ (Nat.log2_self_le (by omega))
  have hhigh : n * 2 ^ k < 2 ^ 53 := by
    calc n * 2 ^ k < 2 ^ (n.log2 + 1) * 2 ^ k :=
          Nat.mul_lt_mul_of_pos_right Nat.lt_log2_self (Nat.pow_pos (by decide))
      _ = 2 ^ 53 := by rw [← pow_add]; congr 1; omega
  have hfirst :
      (n.log2 : Int) - (Nat.log2 1 : Int) - ((53 : Nat) : Int) = -((k + 1 : Nat) : Int) := by
    have hone : Nat.log2 1 = 0 := by decide
    omega
  have hnormal : max (-((k + 1 : Nat) : Int) + 1) (-1074) = (-k : Int) := by omega
  rw [hexponent]
  simp only [ofNat, ofRatio, Format.double, hfirst, shiftRatio_neg, Nat.div_one, Nat.pow_eq,
    if_neg (Nat.not_lt_of_le hlow), hnormal, roundDiv_one, Nat.ne_of_gt hn, if_false]
  rw [if_neg (Nat.ne_of_lt hhigh)]
  simp only [Nat.ne_of_gt hpos, if_false]
  rw [if_neg (by omega)]

/-- The text of a positive whole number: its digits are written, zeros cut off, in front of a
point. -/
theorem exists_text_ofNat {n : Nat} (hn : 0 < n) (h : n < 2 ^ 53) :
    ∃ m t, 0 < m ∧ n = m * 10 ^ t ∧ (ofNat n).text = Decimal.text ⟨m, Decimal.width n⟩ := by
  obtain ⟨m, t, hm, heq, hshort⟩ := Decimal.shortest_whole (k := 52 - n.log2) hn
    (le_trans ((Decimal.width_le_iff (k := 16) (by decide)).2 (by omega)) (by decide))
  have hmantissa : n * 2 ^ (52 - n.log2) ≠ 0 :=
    Nat.ne_of_gt (Nat.mul_pos hn (Nat.pow_pos (by decide)))
  refine ⟨m, t, hm, heq, ?_⟩
  rw [ofNat_eq hn h, text]
  simp only [hmantissa, if_false, hshort, Bool.false_eq_true]

/-- Whole numbers below a million are written in decimal. -/
theorem text_ofNat {n : Nat} (h : n < 1000000) : (ofNat n).text = toString n := by
  rcases Nat.eq_zero_or_pos n with rfl | hn
  · decide +kernel
  · obtain ⟨m, t, hm, rfl, htext⟩ := exists_text_ofNat hn (by omega)
    rw [htext, Decimal.text_of_mul_pow hm h]

/-- From a million on, whole numbers are not written in decimal. -/
theorem text_ofNat_eq_iff {n : Nat} (h : n < 2 ^ 53) :
    (ofNat n).text = toString n ↔ n < 1000000 := by
  refine ⟨fun heq => Nat.lt_of_not_le fun hle => ?_, text_ofNat⟩
  obtain ⟨m, t, -, -, htext⟩ := exists_text_ofNat (n := n) (by omega) h
  have hexponent : 'e' ∈ (toString n).toList := by
    rw [← heq, htext]
    refine Decimal.mem_text_of_lt ?_
    show (6 : Int) < (Decimal.width n : Int)
    exact Int.ofNat_lt.2 (Decimal.pow_lt_of_width hle)
  rw [Nat.toString_eq_repr, Nat.toList_repr] at hexponent
  have hdigit := Nat.isDigit_of_mem_toDigits (by decide) (by decide) hexponent
  exact absurd hdigit (by decide)

end Binary64

end FrozenGlobals.Number
