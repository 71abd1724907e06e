import GuidedJourney.Proofs.WholeNumbers
import GuidedJourney.Value.Number
import Mathlib.Data.List.TakeWhile

namespace GuidedJourney

namespace Binary64

theorem digit_bounds {c : Char} (h : c.isDigit = true) : 48 ≤ c.toNat ∧ c.toNat ≤ 57 := by
  simpa [Char.isDigit, UInt32.le_iff_toNat_le] using h

def IsDecimal (c : Char) : Prop := c.isDigit = true ∨ c = '-'

theorem IsDecimal.bounds {c : Char} (h : IsDecimal c) : 45 ≤ c.toNat ∧ c.toNat ≤ 57 := by
  rcases h with h | rfl
  · have hbounds := digit_bounds h
    omega
  · decide

theorem IsDecimal.plain {c : Char} (h : IsDecimal c) : plainChar c = c :=
  if_pos (Nat.lt_of_le_of_lt h.bounds.2 (by decide))

theorem IsDecimal.inside {c : Char} (h : IsDecimal c) : isMargin c = false := by
  have hbounds := h.bounds
  have hspace : c ≠ ' ' := by
    rintro rfl
    exact absurd hbounds (by decide)
  simp only [isMargin, beq_eq_false_iff_ne.mpr hspace, Bool.false_or, Bool.and_eq_false_iff,
    decide_eq_false_iff_not]
  omega

theorem dropMargins {cs : List Char} (h : ∀ c ∈ cs, isMargin c = false) :
    Text.dropEnd isMargin (cs.dropWhile isMargin) = cs := by
  have hdrop : ∀ {l : List Char}, (∀ c ∈ l, isMargin c = false) → l.dropWhile isMargin = l := by
    intro l hl
    cases l with
    | nil => rfl
    | cons c l => exact List.dropWhile_cons_of_neg (by simp [hl c List.mem_cons_self])
  rw [hdrop h, Text.dropEnd, hdrop (by simpa using h), List.reverse_reverse]

theorem joinDigits?_digits {ds : List Char} (h : ∀ c ∈ ds, c.isDigit = true) {prev : Char}
    (hprev : prev ≠ '_') : joinDigits? prev ds = some ds := by
  induction ds generalizing prev with
  | nil => simp [joinDigits?, hprev]
  | cons c cs ih =>
      rw [List.forall_mem_cons] at h
      have hc : c ≠ '_' := by
        rintro rfl
        exact absurd h.1 (by decide)
      simp [joinDigits?, hc, hprev, ih h.2 hc]

theorem toLower_digit {c : Char} (h : c.isDigit = true) : c.toLower = c := by
  have hbounds := digit_bounds h
  refine dif_neg fun hc => ?_
  have hupper : 65 ≤ c.toNat := UInt32.le_iff_toNat_le.mp hc.1
  omega

theorem word?_digits (negative : Bool) {ds : List Char} (h : ∀ c ∈ ds, c.isDigit = true) :
    word? negative ds = none := by
  have hlower : ds.map Char.toLower = ds :=
    (List.map_congr_left fun c hc => toLower_digit (h c hc)).trans (List.map_id ds)
  have hne : ∀ t : String, (∃ c ∈ t.toList, c.isDigit = false) → (String.ofList ds == t) = false := by
    rintro t ⟨c, hc, hdigit⟩
    refine beq_eq_false_iff_ne.mpr ?_
    rintro rfl
    rw [String.toList_ofList] at hc
    rw [h c hc] at hdigit
    cases hdigit
  rw [word?, hlower]
  simp [hne "inf" ⟨'i', by decide, rfl⟩, hne "infinity" ⟨'i', by decide, rfl⟩,
    hne "nan" ⟨'n', by decide, rfl⟩]

theorem unsigned?_digits (negative : Bool) {ds : List Char} (h : ∀ c ∈ ds, c.isDigit = true)
    (hne : ds ≠ []) : unsigned? negative ds = some (ofDecimal negative (digitsValue ds) 0) := by
  have htake : ds.takeWhile Char.isDigit = ds := List.takeWhile_eq_self_iff.mpr h
  have hdrop : ds.dropWhile Char.isDigit = [] := List.dropWhile_eq_nil_iff.mpr h
  simp [unsigned?, htake, hdrop, exponent?, hne]

theorem digitsValue_toDigits (n : Nat) : digitsValue (Nat.toDigits 10 n) = n := by
  have heq : digitsValue (Nat.toDigits 10 n) = Nat.ofDigitChars 10 (Nat.toDigits 10 n) 0 := by
    simp only [digitsValue, Nat.ofDigitChars, Nat.mul_comm]
  rw [heq, Nat.ofDigitChars_ten_toDigits]

/-- A whole number is rounded once, also where its digits are so many that it counts as infinite without
being looked at. -/
theorem ofDecimal_whole (negative : Bool) (n : Nat) : ofDecimal negative n 0 = round negative n 1 := by
  unfold ofDecimal
  rcases Nat.eq_zero_or_pos n with rfl | hpos
  · rfl
  · have hn := Nat.ne_of_gt hpos
    dsimp only
    rw [if_neg hn]
    split
    · -- So many digits that the number is not written out: it is infinite when rounded, too.
      rename_i hsize
      obtain ⟨m, e, -, hround⟩ := round_scale negative hn
      have hlarge : greatestExponent < (n.log2 : Int) - 52 := by
        unfold greatestExponent
        omega
      obtain ⟨s, hs⟩ := (round_infinite_iff negative hn).mpr (.inl hlarge)
      rw [hround] at hs ⊢
      split at hs
      · rename_i he
        rw [if_pos he]
      · cases hs
    · rw [if_neg (by omega)]
      change round negative (n * 1) 1 = _
      rw [Nat.mul_one]

theorem sign_digits {ds : List Char} (h : ∀ c ∈ ds, c.isDigit = true) : sign ds = (false, ds) := by
  unfold sign
  split
  · exact absurd (h '-' List.mem_cons_self) (by decide)
  · exact absurd (h '+' List.mem_cons_self) (by decide)
  · rfl

theorem ofNumeral?_signed (negative : Bool) {ds : List Char} (h : ∀ c ∈ ds, c.isDigit = true)
    (hne : ds ≠ []) {s : String} (hs : s.toList = (if negative then ['-'] else []) ++ ds) :
    ofNumeral? s = some (ofDecimal negative (digitsValue ds) 0) := by
  have hdecimal : ∀ c ∈ s.toList, IsDecimal c := by
    intro c hc
    rw [hs, List.mem_append] at hc
    rcases hc with hc | hc
    · cases negative with
      | false => cases hc
      | true => exact .inr (List.mem_singleton.mp hc)
    · exact .inl (h c hc)
  have hplain : s.toList.map plainChar = s.toList :=
    (List.map_congr_left fun c hc => (hdecimal c hc).plain).trans (List.map_id _)
  have hjoin : joinDigits? ' ' s.toList = some s.toList := by
    rw [hs]
    cases negative with
    | false => exact joinDigits?_digits h (by decide)
    | true =>
        have hrest : joinDigits? '-' ds = some ds := joinDigits?_digits h (by decide)
        simp [joinDigits?, hrest]
  have hsign : sign s.toList = (negative, ds) := by
    rw [hs]
    cases negative with
    | false => exact sign_digits h
    | true => rfl
  unfold ofNumeral?
  dsimp only
  rw [hplain, dropMargins fun c hc => (hdecimal c hc).inside, hjoin]
  change (word? (sign s.toList).1 (sign s.toList).2).or _ = _
  rw [hsign, word?_digits negative h]
  exact unsigned?_digits negative h hne

theorem toString_chars (n : Int) :
    (toString n).toList = (if decide (n < 0) then ['-'] else []) ++ Nat.toDigits 10 n.natAbs := by
  cases n with
  | ofNat k =>
      have hsign : decide (Int.ofNat k < 0) = false :=
        decide_eq_false (Int.not_lt.mpr (Int.natCast_nonneg k))
      rw [hsign]
      exact Nat.toList_repr
  | negSucc k =>
      rw [decide_eq_true (Int.negSucc_lt_zero k), Int.toString_eq_repr, Int.repr, String.toList_append,
        Nat.toList_repr]
      rfl

theorem toDigits_isDigit {n : Nat} : ∀ c ∈ Nat.toDigits 10 n, c.isDigit = true :=
  fun _ => Nat.isDigit_of_mem_toDigits (by decide) (by decide)

theorem ofNumeral?_toString (n : Int) : ofNumeral? (toString n) = some (ofInt n) := by
  rw [ofNumeral?_signed _ toDigits_isDigit Nat.toDigits_ne_nil (toString_chars n),
    digitsValue_toDigits, ofDecimal_whole]
  rfl

end Binary64

theorem Text.isBlank_digit {c : Char} (h : c.isDigit = true) : isBlank c = false := by
  have hbounds := Binary64.digit_bounds h
  simp [isBlank, within, blankRanges]
  omega

namespace Value

theorem number_toString (n : Int) : (Value.str (toString n)).number? = .ok (some (Binary64.ofInt n)) := by
  obtain ⟨c, cs, hdigits⟩ := List.exists_cons_of_ne_nil (Nat.toDigits_ne_nil (b := 10) (n := n.natAbs))
  have hc : c.isDigit = true := Binary64.toDigits_isDigit c (hdigits ▸ List.mem_cons_self)
  have hmem : c ∈ (toString n).toList := by
    rw [Binary64.toString_chars, hdigits]
    exact List.mem_append_right _ List.mem_cons_self
  have hblank : Text.isBlankText (toString n) = false :=
    List.all_eq_false.mpr ⟨c, hmem, by rw [Text.isBlank_digit hc]; exact Bool.false_ne_true⟩
  rw [number?, hblank, if_neg Bool.false_ne_true, Binary64.ofNumeral?_toString]

end Value

end GuidedJourney
