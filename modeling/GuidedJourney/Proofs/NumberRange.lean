import GuidedJourney.Proofs.DataFaults
import Mathlib.Algebra.Group.Nat.Defs

namespace GuidedJourney

namespace Binary64

/-- Half a unit more than the largest finite number, which is `(2 ^ 53 - 1) * 2 ^ 971`. -/
def overflow : Nat := (2 ^ 54 - 1) * pow2 970

theorem pow2_pos (k : Nat) : 0 < pow2 k := Nat.two_pow_pos k

theorem pow2_le {k l : Nat} (h : k ≤ l) : pow2 k ≤ pow2 l := Nat.pow_le_pow_right (by decide) h

theorem pow2_succ (k : Nat) : pow2 (k + 1) = 2 * pow2 k := Nat.pow_succ'

theorem pow2_add (k l : Nat) : pow2 (k + l) = 2 ^ k * pow2 l := Nat.pow_add 2 k l

theorem inUnits_whole (n k : Nat) : inUnits n 1 (.ofNat k) = (n, pow2 k) := by
  change (n, 1 * pow2 k) = _
  rw [Nat.one_mul]

theorem unitExponent_one {n : Nat} (hn : n ≠ 0) : unitExponent n 1 = (n.log2 : Int) - 52 := by
  have hlow : 2 ^ n.log2 ≤ n := Nat.log2_self_le hn
  have hfull : ¬ (inUnits n 1 ((n.log2 : Int) - 52)).1 / (inUnits n 1 ((n.log2 : Int) - 52)).2
      < pow2 52 := by
    change ¬ _ < 2 ^ 52
    rw [Nat.not_lt]
    cases he : (n.log2 : Int) - 52 with
    | ofNat k =>
        have hk : n.log2 = 52 + k := by
          rw [Int.ofNat_eq_natCast] at he
          omega
        rw [hk, Nat.pow_add] at hlow
        rw [inUnits_whole]
        exact (Nat.le_div_iff_mul_le (Nat.two_pow_pos k)).mpr hlow
    | negSucc k =>
        have hk : n.log2 + (k + 1) = 52 := by omega
        change 2 ^ 52 ≤ n * 2 ^ (k + 1) / 1
        rw [Nat.div_one, ← hk, Nat.pow_add]
        exact Nat.mul_le_mul_right _ hlow
  have hleast : leastExponent ≤ (n.log2 : Int) - 52 := by
    unfold leastExponent
    omega
  unfold unitExponent
  rw [show Nat.log2 1 = 0 from rfl, Int.natCast_zero, Int.sub_zero]
  simp only [if_neg hfull]
  exact Int.max_eq_right hleast

/-- Among the numbers of 53 binary digits at most, those from half a unit below the next power of two on
are rounded up to it. -/
theorem nearest_top {a b : Nat} (hb : 0 < b) (ha : a < 2 ^ 53 * b) :
    nearest a b = 2 ^ 53 ↔ (2 ^ 54 - 1) * b ≤ 2 * a := by
  have hsplit : b * (a / b) + a % b = a := Nat.div_add_mod a b
  have hrest : a % b < b := Nat.mod_lt a hb
  have hquot : a / b < 2 ^ 53 := (Nat.div_lt_iff_lt_mul hb).mpr ha
  unfold nearest
  dsimp only
  generalize a / b = q at *
  generalize a % b = r at *
  rcases Nat.lt_or_ge q (2 ^ 53 - 1) with hq | hq
  · have hbound : b * (q + 1) ≤ b * (2 ^ 53 - 1) := Nat.mul_le_mul_left b hq
    rw [Nat.mul_add] at hbound
    refine iff_of_false ?_ (by omega)
    split
    · omega
    · split
      · omega
      · split <;> omega
  · obtain rfl : q = 2 ^ 53 - 1 := by omega
    rcases Nat.lt_or_ge (2 * r) b with hr | hr
    · rw [if_pos hr]
      omega
    · have hodd : ¬ (2 ^ 53 - 1) % 2 = 0 := by decide
      rw [if_neg (Nat.not_lt_of_ge hr), if_neg hodd, ite_self]
      omega

theorem round_infinite_iff (negative : Bool) {n : Nat} (hn : n ≠ 0) :
    (∃ s, round negative n 1 = .infinite s) ↔ greatestExponent < (n.log2 : Int) - 52 ∨
      (n.log2 : Int) - 52 = greatestExponent ∧ nearest n (pow2 971) = 2 ^ 53 := by
  have hunits : inUnits n 1 greatestExponent = (n, pow2 971) := inUnits_whole n 971
  have hinfinite : ∀ (m : Nat) (e : Int),
      (∃ s, (if greatestExponent < e then infinite negative else .finite negative m e) =
        .infinite s) ↔ greatestExponent < e := by
    intro m e
    split
    · rename_i h
      exact iff_of_true ⟨negative, rfl⟩ h
    · rename_i h
      exact iff_of_false nofun h
  unfold round
  rw [if_neg hn, unitExponent_one hn]
  dsimp only
  generalize (n.log2 : Int) - 52 = e
  split
  · rename_i htop
    change nearest _ _ = 2 ^ 53 at htop
    refine (hinfinite _ _).trans ⟨fun h => ?_, ?_⟩
    · rcases Int.lt_or_eq_of_le (Int.le_of_lt_add_one h) with hlt | rfl
      · exact .inl hlt
      · simp only [hunits] at htop
        exact .inr ⟨rfl, htop⟩
    · rintro (h | ⟨rfl, -⟩)
      · exact Int.lt_add_one_of_le (Int.le_of_lt h)
      · exact Int.lt_add_one_of_le (Int.le_refl _)
  · rename_i htop
    refine (hinfinite _ _).trans ⟨.inl, ?_⟩
    rintro (h | ⟨rfl, h⟩)
    · exact h
    · simp only [hunits] at htop
      exact absurd h htop

theorem ofInt_infinite_iff (n : Int) : (∃ s, ofInt n = .infinite s) ↔ overflow ≤ n.natAbs := by
  have hpos := pow2_pos 970
  have hunit : pow2 971 = 2 * pow2 970 := pow2_succ 970
  rw [ofInt, overflow]
  rcases Nat.eq_zero_or_pos n.natAbs with hzero | hn
  · rw [hzero]
    exact iff_of_false nofun (by omega)
  · have hne := Nat.ne_of_gt hn
    have hlow : pow2 n.natAbs.log2 ≤ n.natAbs := Nat.log2_self_le hne
    have hhigh : n.natAbs < pow2 (n.natAbs.log2 + 1) := Nat.lt_log2_self
    rw [round_infinite_iff _ hne]
    unfold greatestExponent
    generalize n.natAbs = m at *
    rcases Nat.lt_trichotomy m.log2 1023 with hlt | heq | hgt
    · have hle : pow2 (m.log2 + 1) ≤ pow2 (53 + 970) := pow2_le hlt
      rw [pow2_add 53] at hle
      exact iff_of_false (by omega) (by omega)
    · rw [heq, show 1023 + 1 = 53 + 971 from rfl, pow2_add] at hhigh
      rw [nearest_top (pow2_pos 971) hhigh, hunit, heq]
      omega
    · have hle : pow2 (54 + 970) ≤ pow2 m.log2 := pow2_le hgt
      rw [pow2_add] at hle
      exact iff_of_true (by omega) (by omega)

end Binary64

namespace Value

def Oversized (v : Value) : Prop := ∃ n : Int, v = .int n ∧ Binary64.overflow ≤ n.natAbs

theorem intNumber_error {n : Int} {f : Fault} :
    intNumber n = .error f ↔ f = .tooLarge ∧ Binary64.overflow ≤ n.natAbs := by
  rw [← Binary64.ofInt_infinite_iff]
  unfold intNumber
  split
  · rename_i s hs
    constructor
    · intro h
      exact ⟨(Except.error.inj h).symm, s, hs⟩
    · rintro ⟨rfl, -⟩
      rfl
  · rename_i hfinite
    exact iff_of_false nofun fun h => hfinite h.2.choose h.2.choose_spec

theorem number_int (n : Int) : number? (.int n) = (intNumber n).map some := rfl

theorem number_error {v : Value} {f : Fault} :
    v.number? = .error f ↔ f = .tooLarge ∧ v.Oversized := by
  cases v with
  | int n =>
      rw [number_int, map_error_iff, intNumber_error]
      simp [Oversized]
  | _ => exact iff_of_false nofun (by simp [Oversized])

end Value

end GuidedJourney
