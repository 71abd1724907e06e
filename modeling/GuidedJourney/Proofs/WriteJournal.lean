import GuidedJourney.Proofs.RequestEnd
import GuidedJourney.Proofs.ValidJourney

namespace GuidedJourney

open Relation

/-- What a scope holds: its fields, and what is under keys that are no texts. -/
abbrev Held := Fields × Entries

def Store.held (s : Store) (scope : Scope) : Held := (s.scope scope, s.odd scope)

/-- What is held after some writes, one after another. -/
def Held.replay (held : Held) (ws : List StateWrite) : Held :=
  ws.foldl (fun held w =>
    (Fields.overlay held.1 w.updates.texts, Entries.overlay held.2 w.updates.odds)) held

def Scope.writes (scope : Scope) (ws : List StateWrite) : List StateWrite :=
  ws.filter (·.scope = scope)

theorem Held.replay_append (held : Held) (ws ws' : List StateWrite) :
    held.replay (ws ++ ws') = (held.replay ws).replay ws' :=
  List.foldl_append

theorem Scope.writes_append (scope : Scope) (ws ws' : List StateWrite) :
    scope.writes (ws ++ ws') = scope.writes ws ++ scope.writes ws' :=
  List.filter_append _ _

theorem Store.commit_held (s : Store) (w : StateWrite) (scope : Scope) :
    (s.commit w).held scope = (s.held scope).replay (scope.writes [w]) := by
  rcases w with ⟨written, updates⟩
  cases written <;> cases scope <;> rfl

theorem Run.counted_screen (r : Run) (tally : Option String) :
    (r.counted tally).store.held .screen = r.store.held .screen := by
  cases tally with
  | none => rfl
  | some tool =>
      unfold counted
      dsimp only
      split
      · rfl
      · rfl

/-- The writes of a turn account for its state, from the one that it began with: those into the module
all of them, those into the screen from the start or from the entry of the last screen. -/
structure Turn.Journaled (old : Store) (t : Turn) : Prop where
  module : t.run.store.held .module = (old.held .module).replay (Scope.module.writes t.writes)
  screen :
    (t.entered = [] ∧ t.run.store.held .screen = (old.held .screen).replay (Scope.screen.writes t.writes)) ∨
    ∃ s newer, t.entered.getLast? = some s.id ∧ t.run.findScreen? s.id = some s ∧
      newer <:+ Scope.screen.writes t.writes ∧ t.run.store.held .screen = Held.replay (s.state, []) newer

namespace Turn.Journaled

variable {old : Store} {t t' : Turn} {ss : List Screen}

theorem fresh (r : Run) : Turn.Journaled r.store { run := r } := ⟨rfl, .inl ⟨rfl, rfl⟩⟩

theorem afresh {s : Screen}
    (hmodule : t.run.store.held .module = (old.held .module).replay (Scope.module.writes t.writes))
    (hlast : t.entered.getLast? = some s.id) (hfound : t.run.findScreen? s.id = some s)
    (hscreen : t.run.store.held .screen = (s.state, [])) : t.Journaled old :=
  ⟨hmodule, .inr ⟨s, [], hlast, hfound, List.nil_suffix, hscreen⟩⟩

theorem jot (h : t.Journaled old) (hj : t.Jot t') : t'.Journaled old := by
  cases hj with
  | write w hw =>
      -- What is replayed into a scope up to here is replayed with the new write after it.
      have hwrite : ∀ {held : Held} {sc : Scope} {ws : List StateWrite},
          t.run.store.held sc = held.replay ws →
            (t.run.store.commit w).held sc = held.replay (ws ++ sc.writes [w]) := by
        intro held sc ws hws
        rw [Held.replay_append, ← hws]
        exact t.run.store.commit_held w sc
      refine ⟨?_, ?_⟩
      · rw [Scope.writes_append]
        exact hwrite h.module
      · rw [Scope.writes_append]
        rcases h.screen with ⟨hentered, hscreen⟩ | ⟨s, newer, hlast, hfound, ⟨older, hws⟩, hscreen⟩
        · exact .inl ⟨hentered, hwrite hscreen⟩
        · refine .inr ⟨s, _, hlast, hfound, ⟨older, ?_⟩, hwrite hscreen⟩
          rw [← List.append_assoc, hws]
  | _ => exact ⟨h.module, h.screen⟩

theorem jots (h : t.Journaled old) (hj : ReflTransGen Turn.Jot t t') : t'.Journaled old := by
  induction hj with
  | refl => exact h
  | tail _ hj ih => exact ih.jot hj

theorem stride (h : t.Journaled old) (hs : t.Stride ss t') : t'.Journaled old := by
  cases hs with
  | jot hopen hj => exact h.jot hj
  | navigate s hopen hon hs hn => exact afresh h.module List.getLast?_concat hs rfl
  | _ => exact ⟨h.module, h.screen⟩

theorem trek (h : t.Journaled old) (ht : t.Trek ss t') : t'.Journaled old :=
  ht.keeps (fun _ _ h hs => h.stride hs) (fun _ h => ⟨h.module, h.screen⟩) h

end Turn.Journaled

namespace Demand

variable {old : Store} {t t' : Turn} {o : Response}

theorem Ends.journaled {d : Demand} (h : d.Ends t t' o) (ht : t.Journaled old) :
    t'.Journaled old ∨
      ((∃ id, d = .handoff id) ∧ o.outcome = .applied ∧ t'.entered = t.entered ∧
        t'.run.store.held .module = (old.held .module).replay (Scope.module.writes t'.writes)) := by
  cases h with
  | unstarted hs => exact .inl ht
  | started s hs h =>
      have hmoved : (t.moveTo s).Journaled old :=
        .afresh ht.module List.getLast?_concat (Run.findScreen_first hs) rfl
      exact .inl (hmoved.trek h)
  | event c h ho => exact .inl (ht.trek h)
  | stayed message hs => exact .inl ⟨ht.module, ht.screen⟩
  | back s hs =>
      exact .inl (.afresh ht.module List.getLast?_concat (Act.previousScreen_ok hs).2 rfl)
  | unreached id message ha => exact .inl ⟨ht.module, ht.screen⟩
  | left id a ha hs => exact .inr ⟨⟨id, rfl⟩, rfl, rfl, ht.module⟩
  | handed id a s ha hs h =>
      have hfound := Run.findScreen_head (r := (t.handTo a).run) (Act.handoffTarget_mem ha).2 hs
      have hmoved : ((t.handTo a).moveTo s).Journaled old :=
        .afresh ht.module List.getLast?_concat hfound rfl
      exact .inl (hmoved.trek h)
  | wrote label ws => exact .inl (ht.jots (t.writeAll_jots ws))
  | terminated reason flowCompleted => exact .inl ⟨ht.module, ht.screen⟩

end Demand

namespace Request

variable (rules : Rules) {q : Request} {r : Run} {t : Turn} {o : Response}

theorem journaled (h : (q.process rules { run := r }).Reaches (.done t o)) :
    t.Journaled (r.counted q.tally).store ∨
      ((∃ id, q.demand = .handoff id) ∧ o.outcome = .applied ∧ t.entered = [] ∧
        t.run.store.held .module =
          ((r.counted q.tally).store.held .module).replay (Scope.module.writes t.writes)) := by
  cases hover : r.completed with
  | false => exact (ends rules hover h).journaled (.fresh _)
  | true =>
      obtain ⟨-, -, ht⟩ := ends_over rules hover h
      left
      rw [Run.counted_over hover]
      rcases ht with rfl | ⟨s, warnings, hq, hs, rfl⟩
      · exact .fresh r
      · exact .afresh rfl rfl (Run.findScreen_first hs) rfl

/-- Whenever a request comes to a response, the writes that it tells are a complete journal. Replayed in
order they give the module's state, from the one with the tool call counted; and the screen's, from the
old one if no screen was entered and no handoff carried out, and with the last of them from the declared
state of the screen that was entered last. -/
theorem process_writes (h : (q.process rules { run := r }).Reaches (.done t o)) :
    t.run.store.held .module = ((r.counted q.tally).store.held .module).replay (Scope.module.writes o.writes) ∧
    (o.entered = [] → (∀ id, q.demand = .handoff id → o.outcome ≠ .applied) →
      t.run.store.held .screen = (r.store.held .screen).replay (Scope.screen.writes o.writes)) ∧
    ∀ id, o.entered.getLast? = some id → ∃ s newer, s.id = id ∧ t.run.findScreen? id = some s ∧
      newer <:+ Scope.screen.writes o.writes ∧ t.run.store.held .screen = Held.replay (s.state, []) newer := by
  have hwrites : o.writes = t.writes := by
    obtain ⟨_, _, _, _, he⟩ := tells rules h
    rw [he]
    rfl
  rw [hwrites, (tells rules h).entered, ← r.counted_screen q.tally]
  rcases journaled rules h with ⟨hmodule, hscreen⟩ | ⟨⟨agent, hd⟩, happlied, hentered, hmodule⟩
  · refine ⟨hmodule, fun hentered _ => ?_, fun id hlast => ?_⟩
    · rcases hscreen with ⟨-, hscreen⟩ | ⟨s, newer, hlast, -⟩
      · exact hscreen
      · simp [hentered] at hlast
    · rcases hscreen with ⟨hentered, -⟩ | ⟨s, newer, hs, hfound, hnewer, hscreen⟩
      · simp [hentered] at hlast
      · obtain rfl : s.id = id := Option.some.inj (hs.symm.trans hlast)
        exact ⟨s, newer, rfl, hfound, hnewer, hscreen⟩
  · refine ⟨hmodule, fun _ hnone => absurd happlied (hnone agent hd), fun id hlast => ?_⟩
    simp [hentered] at hlast

end Request

-- A hall whose light is put out on the way to a garden, which lights up by itself.
namespace Dusk

def hall : Screen := { Tour.hall with
  state := [("lit", .bool true)]
  events := [Tour.event "walk"
    [.update [] .screen [("lit", .bool false)], .navigate [] "garden"]] }

def garden : Screen := { Tour.garden with
  state := [("lit", .bool false), ("bench", .bool true)]
  events := [⟨"dusk", .onAppear, [],
    [.update [] .screen [("lit", .bool true)], .update [] .module [("late", .bool true)]], .null⟩] }

def run : Run := { Tour.run with
  journey := { Tour.journey with agents := [{ Tour.guide with screens := [hall, garden] }] }
  screenId := some "hall"
  store := { screen := hall.state } }

end Dusk

/-- Of the two writes into the screen only the garden's own counts there. -/
theorem Request.process_writes_dusk : ∃ t o,
    ((⟨.event { id := .str "walk" }, some "trigger_event"⟩ : Request).process ⟨{}, false⟩
      { run := Dusk.run }).Reaches (.done t o) ∧
    o.writes.map StateWrite.scope = [.screen, .screen, .module] ∧
    t.run.store.held .module = ((Dusk.run.counted (some "trigger_event")).store.held .module).replay
      (Scope.module.writes o.writes) ∧
    t.run.store.screen = [("lit", .bool true), ("bench", .bool true)] ∧
    ∃ s newer, s.id = "garden" ∧ t.run.findScreen? "garden" = some s ∧
      newer <:+ Scope.screen.writes o.writes ∧
        t.run.store.held .screen = Held.replay (s.state, []) newer := by
  have hreaches := Work.Reaches.refl
    ((⟨.event { id := .str "walk" }, some "trigger_event"⟩ : Request).process ⟨{}, false⟩
      { run := Dusk.run })
  obtain ⟨hmodule, -, hscreen⟩ := process_writes ⟨{}, false⟩ hreaches
  exact ⟨_, _, hreaches, rfl, hmodule, rfl, hscreen "garden" rfl⟩

end GuidedJourney
