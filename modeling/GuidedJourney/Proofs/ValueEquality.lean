import GuidedJourney.Proofs.DataFaults
import GuidedJourney.Proofs.FieldUpdate
import GuidedJourney.Value.Number
import Mathlib.Data.List.Perm.Subperm

namespace GuidedJourney

theorem Binary64.same_comm (x y : Binary64) : x.same y = y.same x := by
  cases x with
  | nan => cases y <;> rfl
  | infinite s =>
      cases y with
      | infinite t => exact Bool.beq_comm
      | _ => rfl
  | finite n m e =>
      cases y with
      | finite n' m' e' => exact BEq.comm
      | _ => rfl

namespace Value

/-- The values of JSON documents: all but dates and moments, and in an object each key stands once. -/
inductive IsJson : Value → Prop
  | null : IsJson .null
  | bool (b : Bool) : IsJson (.bool b)
  | int (n : Int) : IsJson (.int n)
  | num (x : Binary64) : IsJson (.num x)
  | str (s : String) : IsJson (.str s)
  | list {xs : List Value} (h : ∀ x ∈ xs, IsJson x) : IsJson (.list xs)
  | obj {fields : Fields} (once : fields.keys.Nodup) (h : ∀ f ∈ fields, IsJson f.2) :
      IsJson (.obj fields)

theorem Amount.same_comm (a b : Amount) : a.same b = b.same a := by
  cases a with
  | exact r =>
      cases b with
      | exact r' => exact BEq.comm
      | _ => rfl
  | unbounded s =>
      cases b with
      | unbounded t => exact BEq.comm
      | _ => rfl
  | undefined => cases b <;> rfl

theorem sameAmount_comm (v w : Value) : sameAmount v w = sameAmount w v := by
  unfold sameAmount
  cases v.amount? with
  | none => cases w.amount? <;> rfl
  | some a =>
      cases w.amount? with
      | none => rfl
      | some b => exact a.same_comm b

theorem sameScalar_comm (v w : Value) : sameScalar v w = sameScalar w v := by
  cases v with
  | null =>
      cases w with
      | null => rfl
      | _ => simpa only [sameScalar] using sameAmount_comm _ _
  | str s =>
      cases w with
      | str t => exact BEq.comm
      | _ => simpa only [sameScalar] using sameAmount_comm _ _
  | date d =>
      cases w with
      | date e => exact BEq.comm
      | _ => simpa only [sameScalar] using sameAmount_comm _ _
  | moment t =>
      cases w with
      | moment u => exact BEq.comm
      | _ => simpa only [sameScalar] using sameAmount_comm _ _
  | _ => cases w <;> simpa only [sameScalar] using sameAmount_comm _ _

variable {eq eq' : Value → Value → Except Fault Bool}

theorem sameItems_error {f : Fault} {xs ys : List Value}
    (h : sameItems eq xs ys = .error f) : ∃ x ∈ xs, ∃ y ∈ ys, eq x y = .error f := by
  induction xs generalizing ys with
  | nil => cases h
  | cons x xs ih =>
      cases ys with
      | nil => cases h
      | cons y ys =>
          rcases bind_error_iff.mp h with h | ⟨e, -, h⟩
          · exact ⟨x, List.mem_cons_self, y, List.mem_cons_self, h⟩
          · cases e with
            | false => cases h
            | true =>
                obtain ⟨x', hx, y', hy, h⟩ := ih h
                exact ⟨x', List.mem_cons_of_mem _ hx, y', List.mem_cons_of_mem _ hy, h⟩

theorem sameFields_error {f : Fault} {gs fs : Fields}
    (h : sameFields eq gs fs = .error f) : ∃ p ∈ fs, ∃ q ∈ gs, eq q.2 p.2 = .error f := by
  induction fs with
  | nil => cases h
  | cons p fs ih =>
      rw [sameFields] at h
      split at h
      · cases h
      · rename_i w hw
        rcases bind_error_iff.mp h with h | ⟨e, -, h⟩
        · exact ⟨p, List.mem_cons_self, _, Fields.mem_of_lookup hw, h⟩
        · cases e with
          | false => cases h
          | true =>
              obtain ⟨p', hp, q, hq, h⟩ := ih h
              exact ⟨p', List.mem_cons_of_mem _ hp, q, hq, h⟩

theorem sameItems_comm {xs ys : List Value} (h : ∀ x ∈ xs, ∀ y ∈ ys, eq x y = eq y x) :
    sameItems eq xs ys = sameItems eq ys xs := by
  induction xs generalizing ys with
  | nil => cases ys <;> rfl
  | cons x xs ih =>
      cases ys with
      | nil => rfl
      | cons y ys =>
          have hrest : sameItems eq xs ys = sameItems eq ys xs :=
            ih fun x' hx y' hy => h x' (List.mem_cons_of_mem _ hx) y' (List.mem_cons_of_mem _ hy)
          rw [sameItems, sameItems, h x List.mem_cons_self y List.mem_cons_self, hrest]

theorem sameItems_mono (h : ∀ x y e, eq x y = .ok e → eq' x y = .ok e) {xs ys : List Value} {e : Bool}
    (he : sameItems eq xs ys = .ok e) : sameItems eq' xs ys = .ok e := by
  induction xs generalizing ys with
  | nil => exact he
  | cons x xs ih =>
      cases ys with
      | nil => exact he
      | cons y ys =>
          obtain ⟨first, hfirst, he⟩ := bind_ok_iff.mp he
          refine bind_ok_iff.mpr ⟨first, h x y first hfirst, ?_⟩
          cases first with
          | true => exact ih he
          | false => exact he

theorem sameFields_cons (gs : Fields) (p : String × Value) (fs : Fields) :
    sameFields eq gs (p :: fs) = match Fields.find? gs p.1 with
      | none => .ok false
      | some w => eq w p.2 >>= fun e => if e then sameFields eq gs fs else .ok false := rfl

theorem sameFields_mono (h : ∀ x y e, eq x y = .ok e → eq' x y = .ok e) {gs fs : Fields} {e : Bool}
    (he : sameFields eq gs fs = .ok e) : sameFields eq' gs fs = .ok e := by
  induction fs with
  | nil => exact he
  | cons p fs ih =>
      rw [sameFields_cons] at he ⊢
      cases hw : Fields.find? gs p.1 with
      | none =>
          rw [hw] at he
          exact he
      | some w =>
          rw [hw] at he
          obtain ⟨first, hfirst, he⟩ := bind_ok_iff.mp he
          refine bind_ok_iff.mpr ⟨first, h w p.2 first hfirst, ?_⟩
          cases first with
          | true => exact ih he
          | false => exact he

theorem sameFields_iff {gs fs : Fields} : sameFields eq gs fs = .ok true ↔
    ∀ p ∈ fs, ∃ w, Fields.find? gs p.1 = some w ∧ eq w p.2 = .ok true := by
  induction fs with
  | nil => exact iff_of_true rfl (by simp)
  | cons p fs ih =>
      rw [sameFields_cons, List.forall_mem_cons, ← ih]
      cases Fields.find? gs p.1 with
      | none => simp
      | some w =>
          dsimp only
          rw [bind_ok_iff]
          constructor
          · rintro ⟨first, hfirst, he⟩
            cases first with
            | true => exact ⟨⟨w, rfl, hfirst⟩, he⟩
            | false => cases he
          · rintro ⟨⟨_, ⟨⟩, hfirst⟩, he⟩
            exact ⟨true, hfirst, he⟩

/-- If the first object has as many fields as the second and those all occur in the second, so do those of
the second in the first. -/
theorem sameFields_flip {fs gs : Fields} (hfs : fs.keys.Nodup) (hgs : gs.keys.Nodup)
    (hlength : fs.length = gs.length)
    (hcomm : ∀ p ∈ fs, ∀ q ∈ gs, eq q.2 p.2 = eq p.2 q.2) (h : sameFields eq gs fs = .ok true) :
    sameFields eq fs gs = .ok true := by
  rw [sameFields_iff] at h ⊢
  have hsub : fs.keys ⊆ gs.keys := by
    intro key hkey
    obtain ⟨p, hp, rfl⟩ := List.mem_map.mp hkey
    obtain ⟨w, hw, -⟩ := h p hp
    exact List.mem_map.mpr ⟨_, Fields.mem_of_lookup hw, rfl⟩
  -- As many different keys, all of them among the others: they are the same.
  have hperm : fs.keys.Perm gs.keys :=
    (hfs.subperm hsub).perm_of_length_le (by simp [Fields.keys, hlength])
  intro q hq
  obtain ⟨p, hp, hkey⟩ := List.mem_map.mp (hperm.mem_iff.mpr (List.mem_map_of_mem hq))
  obtain ⟨w, hw, hsame⟩ := h p hp
  obtain rfl : q.2 = w := by
    rw [hkey, Fields.find?_of_mem hgs hq] at hw
    exact Option.some.inj hw
  refine ⟨p.2, ?_, (hcomm p hp q hq).symm.trans hsame⟩
  rw [← hkey]
  exact Fields.find?_of_mem hfs hp

theorem sameFields_comm {fs gs : Fields} (hfs : fs.keys.Nodup) (hgs : gs.keys.Nodup)
    (hlength : fs.length = gs.length) (hcomm : ∀ p ∈ fs, ∀ q ∈ gs, eq q.2 p.2 = eq p.2 q.2)
    (htotal : ∀ p ∈ fs, ∀ q ∈ gs, ∃ e, eq q.2 p.2 = .ok e) :
    sameFields eq gs fs = sameFields eq fs gs := by
  have hok : ∀ {fs gs : Fields}, (∀ p ∈ fs, ∀ q ∈ gs, ∃ e, eq q.2 p.2 = .ok e) →
      ∃ e, sameFields eq gs fs = .ok e := by
    intro fs gs htotal
    cases h : sameFields eq gs fs with
    | ok e => exact ⟨e, rfl⟩
    | error f =>
        obtain ⟨p, hp, q, hq, he⟩ := sameFields_error h
        obtain ⟨e, hok⟩ := htotal p hp q hq
        rw [hok] at he
        cases he
  obtain ⟨e, he⟩ := hok htotal
  obtain ⟨e', he'⟩ := hok fun q hq p hp => by
    obtain ⟨e, hok⟩ := htotal p hp q hq
    exact ⟨e, (hcomm p hp q hq).symm.trans hok⟩
  rw [he, he', Except.ok.injEq, Bool.eq_iff_iff]
  constructor
  · rintro rfl
    exact Except.ok.inj (he'.symm.trans (sameFields_flip hfs hgs hlength hcomm he))
  · rintro rfl
    refine Except.ok.inj (he.symm.trans (sameFields_flip hgs hfs hlength.symm ?_ he'))
    exact fun q hq p hp => (hcomm p hp q hq).symm

theorem same_cases (v w : Value) : (∃ xs ys, v = .list xs ∧ w = .list ys) ∨
    (∃ fs gs, v = .obj fs ∧ w = .obj gs) ∨ ∀ room, same room v w = .ok (sameScalar v w) := by
  cases v with
  | list xs =>
      cases w with
      | list ys => exact .inl ⟨xs, ys, rfl, rfl⟩
      | _ => exact .inr (.inr fun room => by cases room <;> rfl)
  | obj fs =>
      cases w with
      | obj gs => exact .inr (.inl ⟨fs, gs, rfl, rfl⟩)
      | _ => exact .inr (.inr fun room => by cases room <;> rfl)
  | _ => exact .inr (.inr fun room => by cases room <;> rfl)

theorem same_lists (room : Nat) (xs ys : List Value) : same (room + 1) (.list xs) (.list ys) =
    if xs.length = ys.length then sameItems (same room) xs ys else .ok false := rfl

theorem same_objects (room : Nat) (fs gs : Fields) : same (room + 1) (.obj fs) (.obj gs) =
    if fs.length = gs.length then sameFields (same room) gs fs else .ok false := rfl

theorem same_error {room : Nat} {v w : Value} {f : Fault} (h : same room v w = .error f) :
    f = .tooDeep := by
  induction room generalizing v w with
  | zero =>
      rcases same_cases v w with ⟨xs, ys, rfl, rfl⟩ | ⟨fs, gs, rfl, rfl⟩ | hscalar
      · exact (Except.error.inj h).symm
      · exact (Except.error.inj h).symm
      · rw [hscalar] at h
        cases h
  | succ room ih =>
      rcases same_cases v w with ⟨xs, ys, rfl, rfl⟩ | ⟨fs, gs, rfl, rfl⟩ | hscalar
      · rw [same_lists] at h
        split at h
        · obtain ⟨x, -, y, -, h⟩ := sameItems_error h
          exact ih h
        · cases h
      · rw [same_objects] at h
        split at h
        · obtain ⟨p, -, q, -, h⟩ := sameFields_error h
          exact ih h
        · cases h
      · rw [hscalar] at h
        cases h

theorem same_total {room : Nat} {v w : Value} (h : v.fits room = true ∨ w.fits room = true) :
    ∃ e, same room v w = .ok e := by
  induction room generalizing v w with
  | zero =>
      rcases same_cases v w with ⟨xs, ys, rfl, rfl⟩ | ⟨fs, gs, rfl, rfl⟩ | hscalar
      · rcases h with h | h <;> cases h
      · rcases h with h | h <;> cases h
      · exact ⟨_, hscalar 0⟩
  | succ room ih =>
      rcases same_cases v w with ⟨xs, ys, rfl, rfl⟩ | ⟨fs, gs, rfl, rfl⟩ | hscalar
      · rw [fits, fits, List.all_eq_true, List.all_eq_true] at h
        rw [same_lists]
        split
        · cases he : sameItems (same room) xs ys with
          | ok e => exact ⟨e, rfl⟩
          | error f =>
              obtain ⟨x, hx, y, hy, he⟩ := sameItems_error he
              obtain ⟨e, hok⟩ := ih (h.imp (· x hx) (· y hy))
              rw [hok] at he
              cases he
        · exact ⟨false, rfl⟩
      · rw [fits, fits, List.all_eq_true, List.all_eq_true] at h
        rw [same_objects]
        split
        · cases he : sameFields (same room) gs fs with
          | ok e => exact ⟨e, rfl⟩
          | error f =>
              obtain ⟨p, hp, q, hq, he⟩ := sameFields_error he
              obtain ⟨e, hok⟩ := ih (h.symm.imp (· q hq) (· p hp))
              rw [hok] at he
              cases he
        · exact ⟨false, rfl⟩
      · exact ⟨_, hscalar _⟩

theorem same_comm {room : Nat} {v w : Value} (hv : v.IsJson) (hw : w.IsJson)
    (h : v.fits room = true ∨ w.fits room = true) : same room v w = same room w v := by
  induction room generalizing v w with
  | zero =>
      rcases same_cases v w with ⟨xs, ys, rfl, rfl⟩ | ⟨fs, gs, rfl, rfl⟩ | hscalar
      · rcases h with h | h <;> cases h
      · rcases h with h | h <;> cases h
      · rcases same_cases w v with ⟨xs, ys, rfl, rfl⟩ | ⟨fs, gs, rfl, rfl⟩ | hscalar'
        · cases hscalar 0
        · cases hscalar 0
        · rw [hscalar, hscalar', sameScalar_comm v w]
  | succ room ih =>
      rcases same_cases v w with ⟨xs, ys, rfl, rfl⟩ | ⟨fs, gs, rfl, rfl⟩ | hscalar
      · rw [fits, fits, List.all_eq_true, List.all_eq_true] at h
        cases hv with
        | list hxs =>
            cases hw with
            | list hys =>
                have hitems : sameItems (same room) xs ys = sameItems (same room) ys xs :=
                  sameItems_comm fun x hx y hy => ih (hxs x hx) (hys y hy) (h.imp (· x hx) (· y hy))
                rw [same_lists, same_lists, hitems]
                simp only [eq_comm]
      · rw [fits, fits, List.all_eq_true, List.all_eq_true] at h
        cases hv with
        | obj once hfs =>
            cases hw with
            | obj once' hgs =>
                rw [same_objects, same_objects]
                by_cases hlength : fs.length = gs.length
                · rw [if_pos hlength, if_pos hlength.symm]
                  refine sameFields_comm once once' hlength (fun p hp q hq => ?_) fun p hp q hq => ?_
                  · exact ih (hgs q hq) (hfs p hp) (h.symm.imp (· q hq) (· p hp))
                  · exact same_total (h.symm.imp (· q hq) (· p hp))
                · rw [if_neg hlength, if_neg (Ne.symm hlength)]
      · rcases same_cases w v with ⟨xs, ys, rfl, rfl⟩ | ⟨fs, gs, rfl, rfl⟩ | hscalar'
        · cases hscalar 0
        · cases hscalar 0
        · rw [hscalar, hscalar', sameScalar_comm v w]

theorem same_mono {room more : Nat} {v w : Value} {e : Bool} (he : same room v w = .ok e) :
    same (room + more) v w = .ok e := by
  induction room generalizing v w e with
  | zero =>
      rcases same_cases v w with ⟨xs, ys, rfl, rfl⟩ | ⟨fs, gs, rfl, rfl⟩ | hscalar
      · cases he
      · cases he
      · rw [hscalar] at he ⊢
        exact he
  | succ room ih =>
      rw [Nat.add_right_comm]
      rcases same_cases v w with ⟨xs, ys, rfl, rfl⟩ | ⟨fs, gs, rfl, rfl⟩ | hscalar
      · rw [same_lists] at he ⊢
        split at he
        · rename_i hlength
          rw [if_pos hlength]
          exact sameItems_mono (fun x y e => ih) he
        · rename_i hlength
          rw [if_neg hlength]
          exact he
      · rw [same_objects] at he ⊢
        split at he
        · rename_i hlength
          rw [if_pos hlength]
          exact sameFields_mono (fun x y e => ih) he
        · rename_i hlength
          rw [if_neg hlength]
          exact he
      · rw [hscalar] at he ⊢
        exact he

theorem fits_mono {n more : Nat} {v : Value} (h : v.fits n = true) : v.fits (n + more) = true := by
  induction n generalizing v with
  | zero =>
      cases v with
      | list xs => cases h
      | obj fields => cases h
      | _ => cases more <;> rfl
  | succ n ih =>
      rw [Nat.add_right_comm]
      cases v with
      | list xs => exact List.all_eq_true.mpr fun x hx => ih (List.all_eq_true.mp h x hx)
      | obj fields => exact List.all_eq_true.mpr fun p hp => ih (List.all_eq_true.mp h p hp)
      | _ => rfl

theorem exists_fits_all {α : Type} {value : α → Value} {xs : List α}
    (h : ∀ x ∈ xs, ∃ n, (value x).fits n = true) : ∃ n, ∀ x ∈ xs, (value x).fits n = true := by
  induction xs with
  | nil => exact ⟨0, by simp⟩
  | cons x xs ih =>
      rw [List.forall_mem_cons] at h
      obtain ⟨n, hn⟩ := h.1
      obtain ⟨m, hm⟩ := ih h.2
      refine ⟨n + m, List.forall_mem_cons.mpr ⟨fits_mono hn, fun y hy => ?_⟩⟩
      rw [Nat.add_comm]
      exact fits_mono (hm y hy)

/-- Every value is nested in so many levels. -/
theorem IsJson.exists_fits {v : Value} (h : v.IsJson) : ∃ n, v.fits n = true := by
  induction h with
  | list _ ih =>
      obtain ⟨n, hn⟩ := exists_fits_all ih
      exact ⟨n + 1, List.all_eq_true.mpr hn⟩
  | obj _ _ ih =>
      obtain ⟨n, hn⟩ := exists_fits_all ih
      exact ⟨n + 1, List.all_eq_true.mpr hn⟩
  | _ => exact ⟨0, rfl⟩

def nest : Nat → Value → Value
  | 0, v => v
  | n + 1, v => .list [nest n v]

theorem same_nest {room n : Nat} (h : room < n) (v w : Value) :
    same room (nest n v) (nest n w) = .error .tooDeep := by
  induction room generalizing n with
  | zero =>
      obtain ⟨n, rfl⟩ := Nat.exists_eq_succ_of_ne_zero (Nat.ne_zero_of_lt h)
      rfl
  | succ room ih =>
      obtain ⟨n, rfl⟩ := Nat.exists_eq_succ_of_ne_zero (Nat.ne_zero_of_lt h)
      have hlength : [nest n v].length = [nest n w].length := rfl
      rw [nest, nest, same_lists, if_pos hlength, sameItems, ih (Nat.lt_of_succ_lt_succ h)]
      rfl

theorem IsJson.nest {v : Value} (h : v.IsJson) (n : Nat) : (nest n v).IsJson := by
  induction n with
  | zero => exact h
  | succ n ih => exact .list (List.forall_mem_singleton.mpr ih)

/-- If both orders come to an answer, it is the same. -/
theorem same_agree {room : Nat} {v w : Value} (hv : v.IsJson) (hw : w.IsJson) {e e' : Bool}
    (he : same room v w = .ok e) (he' : same room w v = .ok e') : e = e' := by
  obtain ⟨n, hn⟩ := hv.exists_fits
  have hfits : v.fits (room + n) = true := by
    rw [Nat.add_comm]
    exact fits_mono hn
  have hcomm := same_comm hv hw (.inl hfits)
  rw [same_mono he, same_mono he'] at hcomm
  exact Except.ok.inj hcomm

end Value

end GuidedJourney
