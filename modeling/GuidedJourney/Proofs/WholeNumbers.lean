import GuidedJourney.Proofs.NumberRange
import Mathlib.Algebra.Order.Ring.Rat

namespace GuidedJourney.Binary64

def wholeUnit (n : Nat) : Nat := pow2 (n.log2 - 52)

/-- A whole number to 53 binary digits; of two neighbours equally near it is the even one. -/
def nearestWhole (n : Nat) : Nat := nearest n (wholeUnit n) * wholeUnit n

def nearestInt (n : Int) : Int := n.sign * nearestWhole n.natAbs

theorem nearest_cases (a b : Nat) : nearest a b = a / b ∨ nearest a b = a / b + 1 := by
  unfold nearest
  dsimp only
  split
  · exact .inl rfl
  · split
    · exact .inr rfl
    · split
      · exact .inl rfl
      · exact .inr rfl

theorem nearest_mul (m : Nat) {b : Nat} (hb : 0 < b) : nearest (m * b) b = m := by
  have hrest : 2 * (m * b % b) < b := by rwa [Nat.mul_mod_left, Nat.mul_zero]
  unfold nearest
  dsimp only
  rw [if_pos hrest, Nat.mul_div_cancel m hb]

theorem nearest_near (a : Nat) {b : Nat} (hb : 0 < b) :
    2 * a ≤ 2 * (nearest a b * b) + b ∧ 2 * (nearest a b * b) ≤ 2 * a + b := by
  have hsplit : a / b * b + a % b = a := Nat.div_add_mod' a b
  have hrest : a % b < b := Nat.mod_lt a hb
  have hsucc : (a / b + 1) * b = a / b * b + b := Nat.succ_mul _ _
  unfold nearest
  dsimp only
  split
  · omega
  · split
    · omega
    · split <;> omega

theorem nearest_bounds {n k : Nat} (hlow : pow2 (52 + k) ≤ n) (hhigh : n < pow2 (53 + k)) :
    2 ^ 52 ≤ nearest n (pow2 k) ∧ nearest n (pow2 k) ≤ 2 ^ 53 := by
  rw [pow2_add] at hlow hhigh
  have hle : 2 ^ 52 ≤ n / pow2 k := (Nat.le_div_iff_mul_le (pow2_pos k)).mpr hlow
  have hlt : n / pow2 k < 2 ^ 53 := (Nat.div_lt_iff_lt_mul (pow2_pos k)).mpr hhigh
  rcases nearest_cases n (pow2 k) with h | h <;> omega

theorem wholeUnit_small {n : Nat} (h : n.log2 ≤ 52) : wholeUnit n = 1 := by
  rw [wholeUnit, Nat.sub_eq_zero_of_le h]
  rfl

theorem nearestWhole_small {n : Nat} (h : n.log2 ≤ 52) : nearestWhole n = n := by
  have hone := nearest_mul n Nat.one_pos
  rw [Nat.mul_one] at hone
  rw [nearestWhole, wholeUnit_small h, hone, Nat.mul_one]

theorem nearestWhole_large {n k : Nat} (h : n.log2 = 52 + k) :
    nearestWhole n = nearest n (pow2 k) * pow2 k := by
  rw [nearestWhole, wholeUnit, h, Nat.add_sub_cancel_left]

theorem log2_bounds {n k : Nat} (h : n.log2 = 52 + k) : pow2 (52 + k) ≤ n ∧ n < pow2 (53 + k) := by
  have hn : n ≠ 0 := by
    rintro rfl
    rw [Nat.log2_zero] at h
    omega
  have hhigh : n < pow2 (n.log2 + 1) := Nat.lt_log2_self
  rw [h, show 52 + k + 1 = 53 + k by omega] at hhigh
  exact ⟨h ▸ Nat.log2_self_le hn, hhigh⟩

theorem nearestWhole_exact {n : Nat} (h : n ≤ 2 ^ 53) : nearestWhole n = n := by
  rcases Nat.lt_or_ge n (2 ^ 53) with hlt | hge
  · refine nearestWhole_small (Nat.le_of_lt_succ ?_)
    rcases Nat.eq_zero_or_pos n with rfl | hpos
    · decide
    · exact (Nat.log2_lt (Nat.ne_of_gt hpos)).mpr hlt
  · obtain rfl : n = 2 ^ 53 := Nat.le_antisymm h hge
    decide

theorem nearestWhole_between {n k : Nat} (h : n.log2 = 52 + k) :
    pow2 (52 + k) ≤ nearestWhole n ∧ nearestWhole n ≤ pow2 (53 + k) := by
  obtain ⟨hlow, hhigh⟩ := log2_bounds h
  obtain ⟨hle, hge⟩ := nearest_bounds hlow hhigh
  rw [nearestWhole_large h, pow2_add, pow2_add]
  exact ⟨Nat.mul_le_mul_right _ hle, Nat.mul_le_mul_right _ hge⟩

theorem nearestWhole_beyond {n : Nat} (h : 2 ^ 53 ≤ n) : 2 ^ 53 ≤ nearestWhole n := by
  have hlog : 53 ≤ n.log2 := (Nat.le_log2 (by omega)).mpr h
  obtain ⟨k, hk⟩ := Nat.exists_eq_add_of_le hlog
  have hle : pow2 53 ≤ pow2 (52 + (k + 1)) := pow2_le (by omega)
  exact hle.trans (nearestWhole_between (by omega)).1

theorem nearestWhole_near (n : Nat) :
    2 ^ 53 * n ≤ 2 ^ 53 * nearestWhole n + n ∧ 2 ^ 53 * nearestWhole n ≤ 2 ^ 53 * n + n := by
  rcases Nat.le_total n.log2 52 with hle | hge
  · rw [nearestWhole_small hle]
    omega
  · obtain ⟨k, hk⟩ := Nat.exists_eq_add_of_le hge
    have hnear := nearest_near n (pow2_pos k)
    have hunit := (log2_bounds hk).1
    rw [pow2_add] at hunit
    rw [nearestWhole_large hk]
    omega

theorem overflow_le_iff {n : Nat} : overflow ≤ n ↔ pow2 1024 ≤ nearestWhole n := by
  have hunit : pow2 971 = 2 * pow2 970 := pow2_succ 970
  have htop : pow2 1024 = 2 ^ 53 * pow2 971 := pow2_add 53 971
  have hpos := pow2_pos 970
  have hhigh : n < pow2 (n.log2 + 1) := Nat.lt_log2_self
  rw [overflow]
  -- Only where there are 1024 digits are both sides open; then it is the rounding of the first 53.
  rcases Nat.lt_trichotomy n.log2 1023 with hlt | heq | hgt
  · have hle : pow2 (n.log2 + 1) ≤ pow2 (53 + 970) := pow2_le hlt
    have hnearest : nearestWhole n ≤ pow2 (53 + 970) := by
      rcases Nat.le_total n.log2 52 with hsmall | hlarge
      · rw [nearestWhole_small hsmall]
        omega
      · obtain ⟨k, hk⟩ := Nat.exists_eq_add_of_le hlarge
        exact (nearestWhole_between hk).2.trans (pow2_le (by omega))
    rw [pow2_add 53] at hle hnearest
    exact iff_of_false (by omega) (by omega)
  · obtain ⟨hlow, hhigh⟩ := log2_bounds (k := 971) heq
    have hbound := (nearest_bounds hlow hhigh).2
    rw [pow2_add 53] at hhigh
    have hrounded := nearest_top (pow2_pos 971) hhigh
    rw [nearestWhole_large (k := 971) heq, htop, Nat.mul_le_mul_right_iff (pow2_pos 971)]
    omega
  · obtain ⟨k, hk⟩ := Nat.exists_eq_add_of_le (Nat.le_of_lt hgt)
    have hlog : n.log2 = 52 + (971 + k) := by omega
    have hle : pow2 1024 ≤ pow2 (52 + (971 + k)) := pow2_le (by omega)
    have hn := (log2_bounds hlog).1
    exact iff_of_true (by omega) (hle.trans (nearestWhole_between hlog).1)

theorem nearestInt_natAbs (n : Int) : (nearestInt n).natAbs = nearestWhole n.natAbs := by
  rw [nearestInt, Int.natAbs_mul, Int.natAbs_natCast, Int.natAbs_sign]
  split
  · rename_i h
    rw [h]
    rfl
  · exact Nat.one_mul _

theorem nearestInt_exact {n : Int} (h : n.natAbs ≤ 2 ^ 53) : nearestInt n = n := by
  rw [nearestInt, nearestWhole_exact h]
  exact Int.sign_mul_natAbs n

theorem nearestInt_near (n : Int) : 2 ^ 53 * (nearestInt n - n).natAbs ≤ n.natAbs := by
  have hnear := nearestWhole_near n.natAbs
  rw [nearestInt]
  rcases Int.lt_trichotomy n 0 with h | rfl | h
  · rw [Int.sign_eq_neg_one_of_neg h]
    omega
  · decide
  · rw [Int.sign_eq_one_of_pos h]
    omega

theorem nearestInt_close {m n : Int} (h : nearestInt m = nearestInt n) :
    2 ^ 53 * (m - n).natAbs ≤ m.natAbs + n.natAbs := by
  have hm := nearestInt_near m
  have hn := nearestInt_near n
  rw [h] at hm
  omega

theorem nearestInt_inj {m n : Int} (h : m.natAbs < 2 ^ 53 ∨ n.natAbs < 2 ^ 53) :
    nearestInt m = nearestInt n ↔ m = n := by
  have hone : ∀ {k l : Int}, k.natAbs < 2 ^ 53 → nearestInt k = nearestInt l → k = l := by
    intro k l hk he
    have hsize := congrArg Int.natAbs he
    rw [nearestInt_natAbs, nearestInt_natAbs, nearestWhole_exact (Nat.le_of_lt hk)] at hsize
    rcases Nat.lt_or_ge l.natAbs (2 ^ 53) with hl | hl
    · rwa [nearestInt_exact (Nat.le_of_lt hk), nearestInt_exact (Nat.le_of_lt hl)] at he
    · have hbeyond := nearestWhole_beyond hl
      omega
  refine ⟨fun he => ?_, congrArg nearestInt⟩
  rcases h with h | h
  · exact hone h he
  · exact (hone h he.symm).symm

theorem round_cases (negative : Bool) {num : Nat} (hn : num ≠ 0) (den : Nat) {e : Int}
    (he : unitExponent num den = e) : ∃ m e', round negative num den =
        (if greatestExponent < e' then .infinite negative else .finite negative m e') ∧
      (m = nearest (inUnits num den e).1 (inUnits num den e).2 ∧ e' = e ∨
        nearest (inUnits num den e).1 (inUnits num den e).2 = pow2 53 ∧ m = pow2 52 ∧ e' = e + 1) := by
  unfold round
  rw [if_neg hn, he]
  dsimp only
  split
  · rename_i htop
    exact ⟨_, _, rfl, .inr ⟨htop, rfl, rfl⟩⟩
  · exact ⟨_, _, rfl, .inl ⟨rfl, rfl⟩⟩

theorem scale_whole (m k : Nat) : scale m (.ofNat k) = ((m * pow2 k : Nat) : Rat) := rfl

theorem scale_zero (e : Int) : scale 0 e = 0 := by
  cases e with
  | ofNat k => rw [scale_whole, Nat.zero_mul, Nat.cast_zero]
  | negSucc k => exact Rat.zero_mkRat _

theorem scale_fraction (n k : Nat) : scale (n * pow2 (k + 1)) (.negSucc k) = (n : Rat) := by
  have hne : (pow2 (k + 1) : Rat) ≠ 0 := Nat.cast_ne_zero.mpr (Nat.ne_of_gt (pow2_pos _))
  change mkRat _ _ = _
  rw [Rat.mkRat_eq_div]
  push_cast
  exact mul_div_cancel_right₀ _ hne

theorem round_scale (negative : Bool) {n : Nat} (hn : n ≠ 0) : ∃ m e, scale m e = nearestWhole n ∧
    round negative n 1 =
      if greatestExponent < e then .infinite negative else .finite negative m e := by
  obtain ⟨m, e, hround, hparts⟩ := round_cases negative hn 1 (unitExponent_one hn)
  refine ⟨m, e, ?_, hround⟩
  cases hunit : (n.log2 : Int) - 52 with
  | ofNat k =>
      have hlog : n.log2 = 52 + k := by
        rw [Int.ofNat_eq_natCast] at hunit
        omega
      rw [hunit, inUnits_whole] at hparts
      rw [nearestWhole_large hlog]
      rcases hparts with ⟨rfl, rfl⟩ | ⟨htop, rfl, rfl⟩
      · exact scale_whole _ k
      · have hcarry : pow2 52 * pow2 (k + 1) = pow2 53 * pow2 k := by
          rw [pow2_succ k, pow2_succ 52, Nat.mul_left_comm, Nat.mul_assoc]
        rw [htop, ← hcarry]
        exact scale_whole (pow2 52) (k + 1)
  | negSucc k =>
      -- The unit is a fraction, and the number is a multiple of it.
      have hlog : n.log2 + 1 + (k + 1) = 53 := by omega
      have hhigh : n < pow2 (n.log2 + 1) := Nat.lt_log2_self
      have hfits : n * pow2 (k + 1) < pow2 53 := by
        rw [← hlog, pow2_add (n.log2 + 1)]
        exact Nat.mul_lt_mul_of_pos_right hhigh (pow2_pos (k + 1))
      have hexact := nearest_mul (n * pow2 (k + 1)) Nat.one_pos
      rw [Nat.mul_one] at hexact
      have hunits : inUnits n 1 (.negSucc k) = (n * pow2 (k + 1), 1) := rfl
      rw [hunit, hunits, hexact] at hparts
      rw [nearestWhole_small (by omega)]
      rcases hparts with ⟨rfl, rfl⟩ | ⟨htop, -, -⟩
      · exact scale_fraction n k
      · exact absurd htop (Nat.ne_of_lt hfits)

theorem ofInt_toRat? {n : Int} (h : n.natAbs < overflow) :
    (ofInt n).toRat? = some (nearestInt n : Rat) := by
  rcases eq_or_ne n 0 with rfl | hn
  · simp [ofInt, round, toRat?, scale_zero, nearestInt]
  · obtain ⟨m, e, hscale, hround⟩ := round_scale (decide (n < 0)) (Int.natAbs_ne_zero.mpr hn)
    have hfinite : ¬ greatestExponent < e := by
      intro he
      rw [if_pos he] at hround
      exact Nat.not_le_of_lt h ((ofInt_infinite_iff n).mp ⟨_, hround⟩)
    rw [ofInt, hround, if_neg hfinite, toRat?, hscale, nearestInt]
    rcases Int.lt_or_gt_of_ne hn with hneg | hpos
    · rw [if_pos (decide_eq_true hneg), Int.sign_eq_neg_one_of_neg hneg]
      push_cast
      rw [neg_one_mul]
    · rw [if_neg (by simpa using Int.le_of_lt hpos), Int.sign_eq_one_of_pos hpos]
      push_cast
      rw [one_mul]

theorem same_of_toRat? {x y : Binary64} {a b : Rat} (hx : x.toRat? = some a) (hy : y.toRat? = some b) :
    x.same y = decide (a = b) := by
  cases x with
  | finite n m e =>
      cases y with
      | finite n' m' e' => simp only [same, hx, hy]; rfl
      | _ => cases hy
  | _ => cases hx

theorem ofInt_same (m : Int) {n : Int} (h : n.natAbs < overflow) :
    (ofInt m).same (ofInt n) = decide (nearestInt m = nearestInt n) := by
  rcases Nat.lt_or_ge m.natAbs overflow with hm | hm
  · rw [same_of_toRat? (ofInt_toRat? hm) (ofInt_toRat? h)]
    simp only [Rat.intCast_inj]
  · obtain ⟨s, hs⟩ := (ofInt_infinite_iff m).mpr hm
    have hne : nearestInt m ≠ nearestInt n := by
      intro he
      have hbound := overflow_le_iff.mp hm
      rw [← nearestInt_natAbs, he, nearestInt_natAbs] at hbound
      exact Nat.not_le_of_lt h (overflow_le_iff.mpr hbound)
    have hfinite := ofInt_toRat? h
    rw [hs, decide_eq_false hne]
    cases hx : ofInt n with
    | finite => rfl
    | _ => rw [hx] at hfinite; cases hfinite

end GuidedJourney.Binary64
