import GuidedJourney.Definition.Deeplink
import GuidedJourney.Definition.Journey

namespace GuidedJourney

theorem map_error_iff {ε α β : Type} {x : Except ε α} {g : α → β} {e : ε} :
    x.map g = .error e ↔ x = .error e := by
  cases x with
  | ok a => exact iff_of_false nofun nofun
  | error e' => exact ⟨fun h => congrArg _ (Except.error.inj h), fun h => congrArg _ (Except.error.inj h)⟩

theorem bind_error_iff {ε α β : Type} {x : Except ε α} {g : α → Except ε β} {e : ε} :
    x >>= g = .error e ↔ x = .error e ∨ ∃ a, x = .ok a ∧ g a = .error e := by
  cases x with
  | ok a => simp [bind, Except.bind]
  | error e' => simp [bind, Except.bind]

theorem bind_ok_iff {ε α β : Type} {x : Except ε α} {g : α → Except ε β} {b : β} :
    x >>= g = .ok b ↔ ∃ a, x = .ok a ∧ g a = .ok b := by
  cases x with
  | ok a => simp [bind, Except.bind]
  | error e => simp [bind, Except.bind]

def FailsOnly {α : Type} (f : Fault) (x : Except Fault α) : Prop := ∀ e, x = .error e → e = f

namespace FailsOnly

variable {α β : Type} {f : Fault} {x : Except Fault α}

theorem ok (a : α) : FailsOnly f (.ok a) := nofun

theorem error : FailsOnly f (.error f : Except Fault α) := fun _ h => (Except.error.inj h).symm

theorem bind {g : α → Except Fault β} (hx : FailsOnly f x) (hg : ∀ a, FailsOnly f (g a)) :
    FailsOnly f (x >>= g) := by
  intro e h
  cases x with
  | error e' => exact hx e (congrArg Except.error (Except.error.inj h))
  | ok a => exact hg a e h

theorem map (g : α → β) (hx : FailsOnly f x) : FailsOnly f (x.map g) := by
  intro e h
  cases x with
  | error e' => exact hx e (congrArg Except.error (Except.error.inj h))
  | ok a => cases h

theorem ite {c : Prop} [Decidable c] {y : Except Fault α} (hx : FailsOnly f x) (hy : FailsOnly f y) :
    FailsOnly f (if c then x else y) := by
  split
  · exact hx
  · exact hy

end FailsOnly

theorem Value.toFields_obj (fields : Fields) : (Value.obj fields).toFields = .ok fields := by
  cases fields <;> rfl

theorem Value.legible_named {id : Value} {f : Fault}
    (h : (id.orElse (.str "")).legible stackRoom = .error f) : id.legible stackRoom = .error f := by
  cases hid : id.truthy with
  | true => simpa [Value.orElse, hid] using h
  | false => simp [Value.orElse, hid, Value.legible] at h

theorem Value.judge_fails (rule : Value) (context : Fields) :
    FailsOnly .tooLarge (rule.judge context) := by
  unfold judge
  split
  · exact .ok _
  · exact .ok _
  · exact .error
  · exact .ok _

theorem Condition.allHold_fails (conditions : List Condition) (context : Fields) :
    FailsOnly .tooLarge (allHold conditions context) := by
  refine .map _ ?_
  induction conditions with
  | nil => exact .ok _
  | cons c cs ih =>
      rw [judgeAll]
      split
      · exact ih
      · have hjudge := c.rule.judge_fails context
        split
        · rename_i e he
          obtain rfl := hjudge e he
          exact .error
        · exact ih
        · exact .ok _

theorem screenIdOf_fails (deeplink : String) : FailsOnly .badAddress (screenIdOf deeplink) := by
  have hread : FailsOnly .badAddress (Address.ofText deeplink.toList) := by
    unfold Address.ofText
    dsimp only
    split
    · exact .ite (.ok _) .error
    · exact .ite (.ok _) .error
  exact .ite (.ok _) (hread.bind fun address => .ite (.ok _) (.ok _))

theorem Key.ofValue_fails (v : Value) : FailsOnly .wrongKind (ofValue v) := by
  unfold ofValue
  split
  · exact .error
  · exact .error
  · exact .ok _
  · exact .ok _

namespace Path

theorem position_fails (segment : List Char) : FailsOnly .badNumeral (position? segment) := by
  refine .ite (.ok _) (.ite .error ?_)
  split
  · exact .ok _
  · exact .error

theorem follow_fails (v : Value) (segment : List Char) : FailsOnly .badNumeral (follow v segment) := by
  unfold follow
  split
  · exact .ok _
  · exact (position_fails segment).map _
  · exact .ok _

theorem walk_fails (v : Value) (path : List (List Char)) : FailsOnly .badNumeral (walk v path) := by
  induction path generalizing v with
  | nil => exact .ok _
  | cons segment rest ih =>
      rw [walk]
      have hfollow := follow_fails v segment
      split
      · rename_i e he
        obtain rfl := hfollow e he
        exact .error
      · exact .ok _
      · exact ih _

theorem find_fails (context : Fields) (path : String) :
    FailsOnly .badNumeral (find? context path) := by
  refine .ite (.ok _) ?_
  split
  · exact .ok _
  · exact walk_fails _ _

end Path

end GuidedJourney
