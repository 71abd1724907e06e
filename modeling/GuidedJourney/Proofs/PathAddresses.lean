import GuidedJourney.Proofs.NumeralText
import GuidedJourney.Proofs.ValueEquality
import GuidedJourney.Rule.Path
import Mathlib.Data.List.Induction

namespace GuidedJourney

theorem Text.split_intercalate {sep : Char} {parts : List (List Char)} (hne : parts ≠ [])
    (h : ∀ part ∈ parts, sep ∉ part) : split sep ([sep].intercalate parts) = parts := by
  induction parts with
  | nil => exact absurd rfl hne
  | cons part parts ih =>
      rw [List.forall_mem_cons] at h
      cases parts with
      | nil => rw [List.intercalate_singleton, split_of_notMem h.1]
      | cons next parts =>
          rw [List.intercalate_cons_cons, List.append_assoc, List.singleton_append, split_append,
            split_of_notMem h.1, ih (List.cons_ne_nil _ _) h.2, List.singleton_append]

namespace Path

/-- A numeral of a position may begin with zeros. -/
def Writes (segment : List Char) (n : Nat) : Prop :=
  ∃ zeros, segment = List.replicate zeros '0' ++ Nat.toDigits 10 n

theorem digit_lt {c : Char} (h : c.isDigit = true) : c.toNat - '0'.toNat < 10 := by
  have hbounds := Binary64.digit_bounds h
  change c.toNat - 48 < 10
  omega

theorem digitChar_digit {c : Char} (h : c.isDigit = true) : (c.toNat - '0'.toNat).digitChar = c := by
  have hbounds := Binary64.digit_bounds h
  refine Char.toNat_inj.mp ?_
  rw [Nat.toNat_digitChar_of_lt_ten (digit_lt h)]
  change 48 + (c.toNat - 48) = c.toNat
  omega

theorem Writes.digits {segment : List Char} {n : Nat} (h : Writes segment n) :
    segment ≠ [] ∧ (∀ c ∈ segment, c.isDigit = true) ∧ Nat.ofDigitChars 10 segment 0 = n := by
  obtain ⟨zeros, rfl⟩ := h
  refine ⟨List.append_ne_nil_of_right_ne_nil _ Nat.toDigits_ne_nil, fun c hc => ?_, ?_⟩
  · rcases List.mem_append.mp hc with hc | hc
    · obtain rfl := List.eq_of_mem_replicate hc
      rfl
    · exact Nat.isDigit_of_mem_toDigits (by decide) (by decide) hc
  · rw [Nat.ofDigitChars_append, Nat.ofDigitChars_replicate_zero, Nat.mul_zero,
      Nat.ofDigitChars_ten_toDigits]

theorem writes_ofDigitChars {segment : List Char} (hne : segment ≠ [])
    (h : ∀ c ∈ segment, c.isDigit = true) : Writes segment (Nat.ofDigitChars 10 segment 0) := by
  induction segment using List.reverseRecOn with
  | nil => exact absurd rfl hne
  | append_singleton ds c ih =>
      rw [List.forall_mem_append, List.forall_mem_singleton] at h
      have hc : Nat.toDigits 10 (c.toNat - '0'.toNat) = [c] := by
        rw [Nat.toDigits_of_lt_base (digit_lt h.2), digitChar_digit h.2]
      rw [Nat.ofDigitChars_append, Nat.ofDigitChars_cons, Nat.ofDigitChars_nil]
      rcases Nat.eq_zero_or_pos (Nat.ofDigitChars 10 ds 0) with hzero | hpos
      · -- What stands before the last digit is nothing or zeros only.
        rw [hzero, Nat.mul_zero, Nat.zero_add]
        by_cases hds : ds = []
        · subst hds
          exact ⟨0, by rw [hc]; rfl⟩
        · obtain ⟨zeros, hzeros⟩ := ih hds h.1
          refine ⟨zeros + 1, ?_⟩
          rw [hc, hzeros, hzero, List.replicate_succ']
          rfl
      · have hds : ds ≠ [] := by
          rintro rfl
          exact absurd hpos (Nat.lt_irrefl 0)
        obtain ⟨zeros, hzeros⟩ := ih hds h.1
        refine ⟨zeros, ?_⟩
        rw [← Nat.toDigits_append_toDigits (by decide) hpos (digit_lt h.2), hc, ← List.append_assoc,
          ← hzeros]

theorem writes_iff {segment : List Char} {n : Nat} : Writes segment n ↔
    segment ≠ [] ∧ (∀ c ∈ segment, c.isDigit = true) ∧ Nat.ofDigitChars 10 segment 0 = n := by
  refine ⟨Writes.digits, ?_⟩
  rintro ⟨hne, hdigits, rfl⟩
  exact writes_ofDigitChars hne hdigits

def Plain (segment : List Char) : Prop := (∀ c ∈ segment, c.toNat < 0x80) ∧ segment.length ≤ 4300

theorem isDigitLike_ascii {c : Char} (h : c.toNat < 0x80) : Text.isDigitLike c = c.isDigit := by
  have hrange : ¬ 0x80 ≤ c.toNat := Nat.not_le_of_lt h
  cases hc : c.isDigit <;> simp [Text.isDigitLike, Text.digitValue?, hc, h, hrange]

theorem mapM_digitValue {ds : List Char} (h : ∀ c ∈ ds, c.isDigit = true) :
    ds.mapM Text.digitValue? = some (ds.map fun c => c.toNat - '0'.toNat) := by
  induction ds with
  | nil => rfl
  | cons c ds ih =>
      rw [List.forall_mem_cons] at h
      rw [List.mapM_cons, ih h.2, Text.digitValue?, if_pos h.1]
      rfl

theorem position?_writes {segment : List Char} (h : Plain segment) :
    ∃ p, position? segment = .ok p ∧ ∀ n, p = some n ↔ Writes segment n := by
  have hdigits : segment.all Text.isDigitLike = true ↔ ∀ c ∈ segment, c.isDigit = true := by
    rw [List.all_eq_true]
    exact forall₂_congr fun c hc => by rw [isDigitLike_ascii (h.1 c hc)]
  unfold position?
  split
  · rename_i hnone
    refine ⟨none, rfl, fun n => iff_of_false (by simp) fun hw => ?_⟩
    obtain ⟨hne, hall, -⟩ := hw.digits
    rw [hdigits.mpr hall] at hnone
    simp [hne] at hnone
  · rename_i hsome
    have hlike : segment.all Text.isDigitLike = true := by
      cases hall : segment.all Text.isDigitLike with
      | true => rfl
      | false => simp [hall] at hsome
    have hne : segment ≠ [] := by
      rintro rfl
      exact hsome rfl
    have hshort : ¬ longestPosition < segment.length := Nat.not_lt_of_le h.2
    rw [if_neg hshort, mapM_digitValue (hdigits.mp hlike)]
    refine ⟨_, rfl, fun n => ?_⟩
    rw [writes_iff, Option.some.injEq, List.foldl_map]
    simp only [Nat.mul_comm _ 10]
    exact ⟨fun hn => ⟨hne, hdigits.mp hlike, hn⟩, fun hw => hw.2.2⟩

end Path

namespace Value

inductive Part : Value → String → Value → Prop
  | field {fields : Fields} {key : String} {w : Value} (h : (key, w) ∈ fields) : Part (.obj fields) key w
  | item {items : List Value} {segment : String} {n : Nat} {w : Value}
      (hn : Path.Writes segment.toList n) (h : items[n]? = some w) : Part (.list items) segment w

/-- A sequence of segments as an address in a value, and what stands there. -/
inductive Leads : Value → List String → Value → Prop
  | here (v : Value) : Leads v [] v
  | further {v w u : Value} {segment : String} {rest : List String} (h : v.Part segment w)
      (more : Leads w rest u) : Leads v (segment :: rest) u

theorem Part.isJson {v w : Value} {segment : String} (h : v.Part segment w) (hv : v.IsJson) : w.IsJson := by
  cases h with
  | field h =>
      cases hv with
      | obj _ hfields => exact hfields _ h
  | item _ h =>
      cases hv with
      | list hitems => exact hitems _ (List.mem_of_getElem? h)

end Value

theorem Fields.find?_eq_some_iff {fields : Fields} (once : fields.keys.Nodup) {key : String} {w : Value} :
    find? fields key = some w ↔ (key, w) ∈ fields :=
  ⟨mem_of_lookup, find?_of_mem once⟩

theorem Value.leads_field {fields : Fields} (once : fields.keys.Nodup) {key : String} {w u : Value}
    (h : (key, w) ∈ fields) {rest : List String} :
    (Value.obj fields).Leads (key :: rest) u ↔ w.Leads rest u := by
  refine ⟨fun hleads => ?_, .further (.field h)⟩
  cases hleads with
  | further hpart more =>
      cases hpart with
      | field h' =>
          rw [← Fields.find?_eq_some_iff once] at h h'
          obtain rfl := Option.some.inj (h.symm.trans h')
          exact more

namespace Path

theorem follow_part {v : Value} (hv : v.IsJson) {segment : String} (h : Plain segment.toList) :
    ∃ r, follow v segment.toList = .ok r ∧ ∀ w, r = some w ↔ v.Part segment w := by
  cases hv with
  | obj once =>
      refine ⟨_, rfl, fun w => ?_⟩
      rw [String.ofList_toList, Fields.find?_eq_some_iff once]
      refine ⟨.field, fun h => ?_⟩
      cases h
      assumption
  | @list items =>
      obtain ⟨p, hp, hwrites⟩ := position?_writes h
      refine ⟨p.bind (items[·]?), by rw [follow, hp]; rfl, fun w => ?_⟩
      rw [Option.bind_eq_some_iff]
      constructor
      · rintro ⟨n, hn, hw⟩
        exact .item ((hwrites n).mp hn) hw
      · rintro (_ | ⟨hn, hw⟩)
        exact ⟨_, (hwrites _).mpr hn, hw⟩
  | _ => exact ⟨none, rfl, fun w => iff_of_false (by simp) (by rintro ⟨⟩)⟩

theorem walk_leads {v : Value} (hv : v.IsJson) {segments : List String}
    (h : ∀ s ∈ segments, Plain s.toList) :
    ∃ r, walk v (segments.map String.toList) = .ok r ∧ ∀ w, r = some w ↔ v.Leads segments w := by
  induction segments generalizing v with
  | nil =>
      refine ⟨some v, rfl, fun w => ?_⟩
      constructor
      · rintro ⟨⟩
        exact .here v
      · rintro ⟨⟩
        rfl
  | cons s rest ih =>
      rw [List.forall_mem_cons] at h
      obtain ⟨found, hfollow, hpart⟩ := follow_part hv h.1
      rw [List.map_cons, walk, hfollow]
      cases found with
      | none =>
          refine ⟨none, rfl, fun w => iff_of_false (by simp) fun hleads => ?_⟩
          cases hleads with
          | further hs _ => cases (hpart _).mpr hs
      | some w =>
          have hw := (hpart w).mp rfl
          obtain ⟨r, hwalk, hleads⟩ := ih (hw.isJson hv) h.2
          refine ⟨r, hwalk, fun u => ?_⟩
          rw [hleads]
          refine ⟨.further hw, fun hmore => ?_⟩
          cases hmore with
          | further hs more =>
              obtain rfl := Option.some.inj ((hpart _).mpr hs)
              exact more

/-- What is found under a path of segments without dots, unless a key is the whole path. -/
theorem find?_leads {c : Fields} (hc : (Value.obj c).IsJson) {segments : List String}
    (hsegments : ∀ s ∈ segments, '.' ∉ s.toList ∧ Plain s.toList) (hne : ".".intercalate segments ≠ "")
    (hkey : ".".intercalate segments ∉ c.keys) :
    ∃ r, find? c (".".intercalate segments) = .ok r ∧ ∀ v, r = some v ↔ (Value.obj c).Leads segments v := by
  have hsome : segments.map String.toList ≠ [] := by
    intro h
    rw [List.map_eq_nil_iff.mp h] at hne
    exact hne rfl
  have hdots : ∀ part ∈ segments.map String.toList, '.' ∉ part := by
    rw [List.forall_mem_map]
    exact fun s hs => (hsegments s hs).1
  have hnone : Fields.find? c (".".intercalate segments) = none := by
    cases h : Fields.find? c (".".intercalate segments) with
    | none => rfl
    | some w => exact absurd (List.mem_map_of_mem (Fields.mem_of_lookup h)) hkey
  rw [find?, if_neg (by simpa using hne), hnone, String.toList_intercalate]
  change ∃ r, walk _ (Text.split '.' (['.'].intercalate _)) = _ ∧ _
  rw [Text.split_intercalate hsome hdots]
  exact walk_leads hc fun s hs => (hsegments s hs).2

/-- A path of segments leads to the field of an object whose key is the whole path; without such a field,
to what stands at the address that the segments make up, null or not, and nowhere if they make up none. -/
theorem get_addressed {c : Fields} (hc : (Value.obj c).IsJson) {segments : List String}
    (hsegments : ∀ s ∈ segments, '.' ∉ s.toList ∧ (∀ x ∈ s.toList, x.toNat < 0x80) ∧ s.length ≤ 4300)
    {path : String} (hpath : ".".intercalate segments = path) (hne : path ≠ "") (d : Value) :
    (∀ v, (path, v) ∈ c → get c (.str path) d = .ok v) ∧
    (path ∉ c.keys →
      (∀ v, (Value.obj c).Leads segments v → get c (.str path) d = .ok v) ∧
      ((∀ v, ¬ (Value.obj c).Leads segments v) → get c (.str path) d = .ok d)) := by
  subst hpath
  refine ⟨fun v hv => ?_, fun hkey => ?_⟩
  · cases hc with
    | obj once =>
        have hfind : Fields.find? c (".".intercalate segments) = some v := Fields.find?_of_mem once hv
        rw [get, find?, if_neg (by simpa using hne), hfind]
        rfl
  · obtain ⟨r, hfind, hleads⟩ := find?_leads hc hsegments hne hkey
    rw [get, hfind]
    refine ⟨fun v hv => ?_, fun hnowhere => ?_⟩
    · rw [(hleads v).mpr hv]
      rfl
    · cases r with
      | none => rfl
      | some v => exact absurd ((hleads v).mp rfl) (hnowhere v)

/-- A field named like a path hides a list, but not the null in it, which is no missing value; of the
rooms, which have positions, none has a name. -/
theorem get_addressed_house :
    let rooms : Value := .list [.null, .obj [("7", .str "attic")]]
    let c : Fields := [("house", .obj [("rooms", rooms)]), ("house.rooms", .int 2)]
    let Fit := fun s : String => '.' ∉ s.toList ∧ (∀ x ∈ s.toList, x.toNat < 0x80) ∧ s.length ≤ 4300
    let segments := ["house", "rooms", "000", "01", "7", "attic"]
    (Value.obj c).IsJson ∧ (∀ s ∈ segments, Fit s) ∧
      get c (.str "house.rooms") .null = .ok (.int 2) ∧
      get c (.str "house.rooms.000") (.int 9) = .ok .null ∧
      get c (.str "house.rooms.01.7") .null = .ok (.str "attic") ∧
      get c (.str "house.rooms.attic") (.int 9) = .ok (.int 9) := by
  intro rooms c Fit segments
  have hc : (Value.obj c).IsJson := by
    have hlast : (Value.obj [("7", .str "attic")]).IsJson :=
      .obj (by decide) (List.forall_mem_singleton.mpr (.str _))
    have hrooms : rooms.IsJson :=
      .list (List.forall_mem_cons.mpr ⟨.null, List.forall_mem_singleton.mpr hlast⟩)
    have hhouse : (Value.obj [("rooms", rooms)]).IsJson :=
      .obj (by decide) (List.forall_mem_singleton.mpr hrooms)
    exact .obj (by decide) (List.forall_mem_cons.mpr ⟨hhouse, List.forall_mem_singleton.mpr (.int 2)⟩)
  have hfit : ∀ s ∈ segments, Fit s := by
    simp [segments, Fit]
    decide
  have hsome : ∀ {path : List String}, path ⊆ segments → ∀ s ∈ path, Fit s := fun hpath s hs =>
    hfit s (hpath hs)
  have hrooms : ∀ {rest : List String} {v : Value},
      (Value.obj c).Leads ("house" :: "rooms" :: rest) v ↔ rooms.Leads rest v := fun {rest v} => by
    rw [Value.leads_field (by decide) List.mem_cons_self, Value.leads_field (by decide) List.mem_cons_self]
  refine ⟨hc, hfit, ?_, ?_, ?_, ?_⟩
  · have hpath : ∀ s ∈ ["house", "rooms"], Fit s := hsome (by decide)
    exact (get_addressed hc hpath rfl (by decide) _).1 _ (List.mem_cons_of_mem _ List.mem_cons_self)
  · have hpath : ∀ s ∈ ["house", "rooms", "000"], Fit s := hsome (by decide)
    refine ((get_addressed hc hpath rfl (by decide) _).2 (by decide)).1 _ (hrooms.mpr ?_)
    exact .further (.item (n := 0) ⟨2, rfl⟩ rfl) (.here _)
  · have hpath : ∀ s ∈ ["house", "rooms", "01", "7"], Fit s := hsome (by decide)
    refine ((get_addressed hc hpath rfl (by decide) _).2 (by decide)).1 _ (hrooms.mpr ?_)
    exact .further (.item (n := 1) ⟨1, rfl⟩ rfl) (.further (.field List.mem_cons_self) (.here _))
  · have hpath : ∀ s ∈ ["house", "rooms", "attic"], Fit s := hsome (by decide)
    refine ((get_addressed hc hpath rfl (by decide) _).2 (by decide)).2 fun v hv => ?_
    have hitems : (Value.list [.null, .obj [("7", .str "attic")]]).Leads ["attic"] v := hrooms.mp hv
    cases hitems with
    | further hpart _ =>
        cases hpart with
        | item hn _ => exact absurd (hn.digits.2.1 'a' (by decide)) (by decide)

end Path

end GuidedJourney
