import GuidedJourney.Proofs.SessionCourse
import GuidedJourney.Proofs.TimerVisits

namespace GuidedJourney

open Relation

/-- An agent may hand over to another one of the journey that it lists. -/
def Journey.HandsTo (j : Journey) (a b : Agent) : Prop := b ∈ j.agents ∧ b.id ∈ a.handoffs

inductive Turn.Enters (s : Screen) (t : Turn) : Turn → Prop
  | start (hs : t.run.agent?.bind (·.screens.head?) = some s) : Enters s t (t.moveTo s)
  | navigate (hopen : t.Open) (hs : t.run.findScreen? s.id = some s) : Enters s t (t.moveTo s)
  | back (hopen : t.Open) (hs : Act.previousScreen t.run = .ok s) : Enters s t (t.backTo s)
  | handoff (id : Value) (a : Agent) (hopen : t.Open) (ha : Act.handoffTarget? t.run id = some a)
      (hs : a.screens.head? = some s) : Enters s t ((t.handTo a).moveTo s)

/-- The screen is the last one that the run has entered since it was `r₀`. The state of the screen was
then the declared one, and the run has stayed on that visit. -/
def Run.LastEntered (r₀ : Run) (s : Screen) (r : Run) : Prop :=
  ∃ t t' : Turn, r₀.Becomes t.run ∧ t.Enters s t' ∧ t'.run.store.screen = s.state ∧ t'.run.Remains r

theorem Turn.Edit.place {t t' : Turn} (h : t.Edit t') : t'.run.agent? = t.run.agent? ∧
    t'.run.screenId = t.run.screenId ∧ t'.run.findScreen? = t.run.findScreen? := by
  cases h <;> exact ⟨rfl, rfl, rfl⟩

theorem Turn.Enters.arrives {s : Screen} {t t' : Turn} (h : t.Enters s t') :
    t'.run.screenId = some s.id ∧ t'.run.findScreen? s.id = some s ∧ t'.run.store.screen = s.state := by
  cases h with
  | start hs => exact ⟨rfl, Run.findScreen_first hs, rfl⟩
  | navigate hopen hs => exact ⟨rfl, hs, rfl⟩
  | back hopen hs => exact ⟨rfl, (Act.previousScreen_ok hs).2, rfl⟩
  | handoff id a hopen ha hs =>
      exact ⟨rfl, Run.findScreen_head (r := (t.handTo a).run) (Act.handoffTarget_mem ha).2 hs, rfl⟩

theorem Turn.Move.enters {t t' : Turn} (h : t.Move t') :
    (∃ s, t.Enters s t') ∨ t'.run.screenId = none := by
  cases h with
  | start s hs => exact .inl ⟨s, .start hs⟩
  | navigate s hopen hon hs hn => exact .inl ⟨s, .navigate hopen hs⟩
  | back s hopen hs => exact .inl ⟨s, .back hopen hs⟩
  | handoff id a s hopen ha hs => exact .inl ⟨s, .handoff id a hopen ha hs⟩
  | leave id a hopen ha hs => exact .inr rfl

theorem Turn.Move.agent {t t' : Turn} (h : t.Move t') : t'.run.agent? = t.run.agent? ∨
    ∃ a b, t.run.agent? = some a ∧ t'.run.agent? = some b ∧ t.run.journey.HandsTo a b := by
  have hlinked : ∀ {id b}, Act.handoffTarget? t.run id = some b →
      ∃ a, t.run.agent? = some a ∧ t.run.journey.HandsTo a b := by
    intro id b hb
    have hmem := (Act.handoffTarget_mem hb).1
    obtain ⟨a, ha, hlisted⟩ := Act.handoffTarget_listed hb
    exact ⟨a, ha, hmem, hlisted⟩
  cases h with
  | handoff id b s hopen hb hs =>
      obtain ⟨a, ha, hlink⟩ := hlinked hb
      exact .inr ⟨a, b, ha, (Act.handoffTarget_mem hb).2, hlink⟩
  | leave id b hopen hb hs =>
      obtain ⟨a, ha, hlink⟩ := hlinked hb
      exact .inr ⟨a, b, ha, (Act.handoffTarget_mem hb).2, hlink⟩
  | _ => exact .inl rfl

/-- A run that began as `r₀` with the agent `start` is where handoffs and screen entries have led. -/
structure Run.Guided (r₀ : Run) (start : Agent) (r : Run) : Prop where
  agent : ∃ a, r.agent? = some a ∧ ReflTransGen r₀.journey.HandsTo start a
  screen : r.screenId = none ∨
    ∃ s, r.screenId = some s.id ∧ r.findScreen? s.id = some s ∧ r₀.LastEntered s r

namespace Run.Guided

variable {r₀ r : Run} {start : Agent} {t t' : Turn}

theorem edited (h : r₀.Guided start t.run) (he : t.Edit t') : r₀.Guided start t'.run := by
  obtain ⟨hagent, hid, hfind⟩ := he.place
  refine ⟨by rw [hagent]; exact h.agent, ?_⟩
  rw [hid, hfind]
  refine h.screen.imp_right fun ⟨s, hs, hfound, t₁, t₂, hb, henters, hstate, hremains⟩ => ?_
  exact ⟨s, hs, hfound, t₁, t₂, hb, henters, hstate, hremains.tail ⟨t, t', he, rfl, rfl⟩⟩

theorem moved (h : r₀.Guided start t.run) (hb : r₀.Becomes t.run) (hm : t.Move t') :
    r₀.Guided start t'.run where
  agent := by
    obtain ⟨a, ha, hchain⟩ := h.agent
    rcases hm.agent with hsame | ⟨a', b, ha', hb', hlink⟩
    · exact ⟨a, hsame.trans ha, hchain⟩
    · obtain rfl := Option.some.inj (ha.symm.trans ha')
      rw [hb.fixed.1] at hlink
      exact ⟨b, hb', hchain.tail hlink⟩
  screen := by
    refine (hm.enters.imp_left fun ⟨s, henters⟩ => ?_).symm
    obtain ⟨hid, hfound, hstate⟩ := henters.arrives
    exact ⟨s, hid, hfound, t, t', hb, henters, hstate, .refl⟩

end Run.Guided

namespace Session

variable {ε : Type}

end Session

-- A guide and a keeper, each with a hall of its own.
namespace Relay

def hall (lit : Bool) : Screen := { Tour.hall with state := [("lit", .bool lit)], events := [] }

def guide : Agent := { Tour.guide with handoffs := ["keeper"], screens := [hall true] }

def keeper : Agent := { Tour.guide with id := "keeper", screens := [hall false] }

def journey : Journey := { Tour.journey with id := "relay", agents := [guide, keeper] }

def run : Run := { Tour.run with id := "relay", journey }

theorem newRun_run : ({ setup := {} } : Host).newRun journey [] [] "relay" = .ok run := by
  have hname : journey.nameIssues = [] := by decide +kernel
  exact Host.newRun_valid _ (Journey.issues_clear rfl hname rfl (by decide)) [] [] "relay"

end Relay

end GuidedJourney
