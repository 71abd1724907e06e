import GuidedJourney.Definition.Journey
import Mathlib.Algebra.Group.Nat.Defs
import Mathlib.Data.List.TakeWhile
import Mathlib.Data.List.Basic

namespace GuidedJourney

theorem padded_toList (w n : Nat) : (padded w n).toList =
    List.replicate (w - (Nat.toDigits 10 n).length) '0' ++ Nat.toDigits 10 n :=
  String.toList_ofList

theorem padded_length {w n : Nat} (hw : 0 < w) (hn : n < 10 ^ w) : (padded w n).toList.length = w := by
  have hle : (Nat.toDigits 10 n).length ≤ w := (Nat.length_toDigits_le_iff (by decide) hw).mpr hn
  rw [padded_toList, List.length_append, List.length_replicate]
  omega

theorem padded_isDigit {w n : Nat} {c : Char} (h : c ∈ (padded w n).toList) : c.isDigit = true := by
  rw [padded_toList, List.mem_append] at h
  rcases h with h | h
  · rw [List.eq_of_mem_replicate h]
    decide
  · exact Nat.isDigit_of_mem_toDigits (by decide) (by decide) h

namespace Moment

theorem digitsValue_eq (cs : List Char) : digitsValue cs = Nat.ofDigitChars 10 cs 0 := by
  simp only [digitsValue, Nat.ofDigitChars, Nat.mul_comm]

theorem digitsValue_padded (w n : Nat) : digitsValue (padded w n).toList = n := by
  rw [digitsValue_eq, padded_toList, Nat.ofDigitChars_append, Nat.ofDigitChars_replicate_zero,
    Nat.mul_zero, Nat.ofDigitChars_ten_toDigits]

theorem digits?_padded {w n : Nat} (hw : 0 < w) (hn : n < 10 ^ w) (rest : List Char) :
    digits? w ((padded w n).toList ++ rest) = some (n, rest) := by
  have hlength := padded_length hw hn
  have hdigits : (padded w n).toList.all Char.isDigit = true :=
    List.all_eq_true.mpr fun _ => padded_isDigit
  rw [digits?, List.take_left' hlength, List.drop_left' hlength, hlength, hdigits,
    digitsValue_padded]
  simp

def fractionText (us : Nat) : List Char := if us = 0 then [] else '.' :: (padded 6 us).toList

theorem fraction?_padded (t : Clock) {us : Nat} (h : us < 1000000) :
    fraction? t (padded 6 us).toList = some ({ t with microsecond := us }, true) := by
  have hdigits := digits?_padded (w := 6) (by decide) h []
  rw [List.append_nil] at hdigits
  simp [fraction?, padded_length (w := 6) (by decide) h, hdigits]

theorem padded_two {n : Nat} (hn : n < 100) : ∃ a b, (padded 2 n).toList = [a, b] := by
  have hlength := padded_length (w := 2) (by decide) hn
  rcases hp : (padded 2 n).toList with _ | ⟨a, _ | ⟨b, _ | ⟨c, cs⟩⟩⟩
  · simp [hp] at hlength
  · simp [hp] at hlength
  · exact ⟨a, b, rfl⟩
  · simp [hp] at hlength

theorem seconds?_text (t : Clock) {s us : Nat} (hs : s < 100) (hus : us < 1000000)
    (ht : t.microsecond = 0) : seconds? true t ((padded 2 s).toList ++ fractionText us) =
      some ({ t with second := s, microsecond := us }, true) := by
  rw [seconds?, digits?_padded (by decide) hs]
  unfold fractionText
  split
  · rename_i h
    subst h
    cases t
    cases ht
    rfl
  · have hlength := padded_length (w := 6) (by decide) hus
    have hfraction := fraction?_padded { t with second := s } hus
    rcases hp : (padded 6 us).toList with _ | ⟨a, _ | ⟨b, cs⟩⟩
    · simp [hp] at hlength
    · simp [hp] at hlength
    · rw [hp] at hfraction
      exact hfraction

def hoursText (h m : Nat) (seconds : List Char) : List Char :=
  (padded 2 h).toList ++ ':' :: ((padded 2 m).toList ++ seconds)

def secondsText (s us : Nat) : List Char := ':' :: ((padded 2 s).toList ++ fractionText us)

theorem clock?_minutes {h m : Nat} (hh : h < 100) (hm : m < 100) :
    clock? (hoursText h m []) = some ({ hour := h, minute := m }, true) := by
  obtain ⟨a, b, hp⟩ := padded_two hm
  have hminutes := digits?_padded (w := 2) (by decide) hm []
  rw [hp] at hminutes
  rw [clock?, hoursText, digits?_padded (by decide) hh, hp]
  change minutes? true { hour := h } ([a, b] ++ []) = _
  rw [minutes?, hminutes]
  rfl

theorem clock?_seconds {h m s us : Nat} (hh : h < 100) (hm : m < 100) (hs : s < 100)
    (hus : us < 1000000) : clock? (hoursText h m (secondsText s us)) = some (⟨h, m, s, us⟩, true) := by
  obtain ⟨a, b, hp⟩ := padded_two hm
  obtain ⟨a', b', hp'⟩ := padded_two hs
  have hminutes := digits?_padded (w := 2) (by decide) hm (secondsText s us)
  have hseconds := seconds?_text { hour := h, minute := m } hs hus rfl
  rw [hp, secondsText, hp'] at hminutes
  rw [hp'] at hseconds
  rw [clock?, hoursText, digits?_padded (by decide) hh, hp, secondsText, hp']
  change minutes? true { hour := h } _ = _
  rw [minutes?, hminutes]
  exact hseconds

theorem clockText_toList (h m s us : Nat) :
    (clockText h m s us).toList = hoursText h m (secondsText s us) := by
  unfold clockText hoursText secondsText fractionText
  split
  · simp [toString]
  · simp [toString]

def offsetSeconds (n : Nat) : List Char :=
  if n % 60000000 = 0 then [] else secondsText (n / 1000000 % 60) (n % 1000000)

theorem offsetText_toList (o : Int) : (offsetText o).toList = (if o < 0 then '-' else '+') ::
    hoursText (o.natAbs / 1000000 / 3600) (o.natAbs / 1000000 / 60 % 60) (offsetSeconds o.natAbs) := by
  have hsign : (if o < 0 then "-" else "+" : String).toList = [if o < 0 then '-' else '+'] := by
    split <;> rfl
  unfold offsetText hoursText offsetSeconds secondsText fractionText
  dsimp only
  split
  · simp [toString, hsign]
  · split
    · simp [toString, hsign]
    · simp [toString, hsign]

def offsetClock (n : Nat) : Clock where
  hour := n / 1000000 / 3600
  minute := n / 1000000 / 60 % 60
  second := n / 1000000 % 60
  microsecond := n % 1000000

theorem clock?_offset {n : Nat} (hn : n < 86400000000) :
    clock? (hoursText (n / 1000000 / 3600) (n / 1000000 / 60 % 60) (offsetSeconds n)) =
      some (offsetClock n, true) := by
  unfold offsetSeconds
  split
  · rename_i hwhole
    have hsecond : n / 1000000 % 60 = 0 := by omega
    have hmicro : n % 1000000 = 0 := by omega
    rw [clock?_minutes (by omega) (by omega), offsetClock, hsecond, hmicro]
  · exact clock?_seconds (by omega) (by omega) (by omega) (by omega)

/-- The size of an offset by the clock, in microseconds; less than a second counts as nothing. -/
def Clock.size (t : Clock) : Int :=
  let seconds : Int := (t.hour * 3600 + t.minute * 60 + t.second : Nat)
  if seconds = 0 then 0 else seconds * 1000000 + t.microsecond

theorem zone?_signed {sign : Char} (hsign : sign ≠ 'Z') {cs : List Char} {t : Clock}
    (h : clock? cs = some (t, true)) :
    zone? (sign :: cs) = some (if sign == '-' then -t.size else t.size) := by
  unfold zone?
  split
  · rename_i he
    exact absurd (List.cons.inj he).1 hsign
  · rename_i he
    exact absurd (List.cons.inj he).1 hsign
  · rename_i he
    obtain ⟨rfl, rfl⟩ := List.cons.inj he
    rw [h]
    rfl
  · rename_i he
    cases he

theorem offsetClock_size {n : Nat} (h : n = 0 ∨ 1000000 ≤ n) : (offsetClock n).size = n := by
  have hseconds : (offsetClock n).hour * 3600 + (offsetClock n).minute * 60 +
      (offsetClock n).second = n / 1000000 := by
    dsimp only [offsetClock]
    omega
  unfold Clock.size
  rw [hseconds]
  dsimp only [offsetClock]
  split
  · omega
  · omega

/-- An offset of less than a second would be read as none. -/
theorem zone?_offsetText {o : Int} (ho : o.natAbs < 86400000000) (hs : o = 0 ∨ 1000000 ≤ o.natAbs) :
    zone? (offsetText o).toList = some o := by
  have hclock := clock?_offset ho
  have hsize : (offsetClock o.natAbs).size = o.natAbs := offsetClock_size (by omega)
  rw [offsetText_toList]
  split
  · rw [zone?_signed (by decide) hclock, hsize, if_pos (by decide)]
    exact congrArg some (by omega)
  · rw [zone?_signed (by decide) hclock, hsize, if_neg (by decide)]
    exact congrArg some (by omega)

theorem dateText_toList (d : Date) : d.text.toList =
    (padded 4 d.year).toList ++ '-' :: ((padded 2 d.month).toList ++ '-' :: (padded 2 d.day).toList) := by
  simp [Date.text, toString]

theorem isDigit_ne {c d : Char} (h : c.isDigit = true) (hd : d.isDigit = false) : c ≠ d := by
  rintro rfl
  rw [h] at hd
  cases hd

/-- A month is never taken for a week. -/
theorem padded_month {m : Nat} (hm : m < 100) :
    ∃ a b, (padded 2 m).toList = [a, b] ∧ a ≠ 'W' := by
  obtain ⟨a, b, hp⟩ := padded_two hm
  have ha : a ∈ (padded 2 m).toList := by
    rw [hp]
    exact List.mem_cons_self
  exact ⟨a, b, hp, isDigit_ne (padded_isDigit ha) (by decide)⟩

theorem date?_text {d : Date} (hy : d.year < 10000) (hm : d.month < 100) (hd : d.day < 100) :
    date? d.text.toList = some d := by
  obtain ⟨a, b, hp, ha⟩ := padded_month hm
  have hmonth := digits?_padded (w := 2) (by decide) hm ('-' :: (padded 2 d.day).toList)
  have hday := digits?_padded (w := 2) (by decide) hd []
  rw [List.append_nil] at hday
  rw [dateText_toList, date?, digits?_padded (by decide) hy]
  rw [hp] at hmonth ⊢
  simp only [Option.bind_eq_bind, Option.bind_some, List.head?_cons, beq_self_eq_true, if_true,
    List.tail_cons]
  split
  · rename_i he
    exact absurd (List.cons.inj he).1 ha
  · simp only [hmonth, Option.bind_some, separated?, if_true, hday]

theorem dateText_length {d : Date} (hy : d.year < 10000) (hm : d.month < 100) (hd : d.day < 100) :
    d.text.toList.length = 10 := by
  have hyear := padded_length (w := 4) (by decide) hy
  have hmonth := padded_length (w := 2) (by decide) hm
  have hday := padded_length (w := 2) (by decide) hd
  simp [dateText_toList, hyear, hmonth, hday]

theorem dateLength_text {d : Date} (hy : d.year < 10000) (hm : d.month < 100) (hd : d.day < 100)
    (rest : List Char) : dateLength (d.text.toList ++ rest) = 10 := by
  obtain ⟨a, b, hp, ha⟩ := padded_month hm
  have hyear := padded_length (w := 4) (by decide) hy
  have hlength := dateText_length hy hm hd
  have hdash : (d.text.toList ++ rest)[4]? = some '-' := by
    simp [dateText_toList, hyear]
  have hmonth : (d.text.toList ++ rest)[5]? = some a := by
    simp [dateText_toList, hyear, hp, List.getElem?_append]
  rw [dateLength, if_neg (by rw [List.length_append, hlength]; omega), if_pos hdash, hmonth,
    if_neg (fun h => ha (Option.some.inj h))]

def IsClockChar (c : Char) : Prop := c.isDigit = true ∨ c = ':' ∨ c = '.'

theorem fractionText_chars {us : Nat} {c : Char} (h : c ∈ fractionText us) : IsClockChar c := by
  unfold fractionText at h
  split at h
  · cases h
  · rcases List.mem_cons.mp h with rfl | h
    · exact .inr (.inr rfl)
    · exact .inl (padded_isDigit h)

theorem secondsText_chars {s us : Nat} {c : Char} (h : c ∈ secondsText s us) : IsClockChar c := by
  rcases List.mem_cons.mp h with rfl | h
  · exact .inr (.inl rfl)
  · rcases List.mem_append.mp h with h | h
    · exact .inl (padded_isDigit h)
    · exact fractionText_chars h

theorem hoursText_chars {h m : Nat} {seconds : List Char} (hs : ∀ c ∈ seconds, IsClockChar c) :
    ∀ c ∈ hoursText h m seconds, IsClockChar c := by
  intro c hc
  rcases List.mem_append.mp hc with hc | hc
  · exact .inl (padded_isDigit hc)
  · rcases List.mem_cons.mp hc with rfl | hc
    · exact .inr (.inl rfl)
    · rcases List.mem_append.mp hc with hc | hc
      · exact .inl (padded_isDigit hc)
      · exact hs c hc

theorem offsetSeconds_chars {n : Nat} {c : Char} (h : c ∈ offsetSeconds n) : IsClockChar c := by
  unfold offsetSeconds at h
  split at h
  · cases h
  · exact secondsText_chars h

theorem IsClockChar.unmarked {c : Char} (h : IsClockChar c) : isZoneMark c = false := by
  rcases h with h | rfl | rfl
  · have hplus : c ≠ '+' := isDigit_ne h (by decide)
    have hminus : c ≠ '-' := isDigit_ne h (by decide)
    have hzone : c ≠ 'Z' := isDigit_ne h (by decide)
    simp [isZoneMark, hplus, hminus, hzone]
  · decide
  · decide

def zoneText (t : Moment) : List Char := (t.offset.map fun o => (offsetText o).toList).getD []

theorem text_toList (t : Moment) : t.text.toList = t.date.text.toList ++
    'T' :: (hoursText t.hour t.minute (secondsText t.second t.microsecond) ++ zoneText t) := by
  rw [← clockText_toList]
  cases ho : t.offset with
  | none => simp [text, textWith, zoneText, ho, toString]
  | some o => simp [text, textWith, zoneText, ho, toString]

theorem zoneText_cases (t : Moment) : (t.offset = none ∧ zoneText t = []) ∨
    ∃ o sign cs, t.offset = some o ∧ zoneText t = sign :: cs ∧ (offsetText o).toList = sign :: cs ∧
      isZoneMark sign = true ∧ sign ≠ 'Z' ∧ ∀ c ∈ cs, IsClockChar c := by
  unfold zoneText
  cases ho : t.offset with
  | none => exact .inl ⟨rfl, rfl⟩
  | some o =>
      refine .inr ⟨o, _, _, rfl, offsetText_toList o, offsetText_toList o, ?_, ?_,
        hoursText_chars fun _ => offsetSeconds_chars⟩
      · split <;> decide
      · split <;> decide

/-- What can be read as a moment: a valid one, whose offset is none or that of a second at least. -/
structure Readable (t : Moment) : Prop where
  valid : t.isValid = true
  offset : ∀ o, t.offset = some o → o = 0 ∨ 1000000 ≤ o.natAbs

theorem daysInMonth_le (y m : Nat) : Date.daysInMonth y m ≤ 31 := by
  unfold Date.daysInMonth
  split
  · split <;> omega
  · omega
  · omega
  · omega
  · omega
  · omega

theorem isValid_bounds {t : Moment} (h : t.isValid = true) :
    (t.date.year < 10000 ∧ t.date.month < 100 ∧ t.date.day < 100) ∧
      (t.hour < 100 ∧ t.minute < 100 ∧ t.second < 100 ∧ t.microsecond < 1000000) ∧
      ∀ o, t.offset = some o → o.natAbs < 86400000000 := by
  have hdays := daysInMonth_le t.date.year t.date.month
  simp only [isValid, Date.isValid, dayLength, Bool.and_eq_true, decide_eq_true_eq] at h
  obtain ⟨⟨⟨⟨⟨hdate, hhour⟩, hminute⟩, hsecond⟩, hmicro⟩, hoffset⟩ := h
  refine ⟨by omega, by omega, fun o ho => ?_⟩
  rw [ho] at hoffset
  obtain ⟨hlow, hhigh⟩ := (Bool.and_eq_true _ _).mp hoffset
  have hlow := of_decide_eq_true hlow
  have hhigh := of_decide_eq_true hhigh
  omega

theorem ofText?_text {t : Moment} (h : t.Readable) : ofText? t.text = some t := by
  obtain ⟨⟨hy, hm, hd⟩, ⟨hh, hmin, hs, hus⟩, hoffset⟩ := isValid_bounds h.valid
  have hclock := clock?_seconds hh hmin hs hus
  have hunmarked : ∀ c ∈ hoursText t.hour t.minute (secondsText t.second t.microsecond),
      (!isZoneMark c) = true := fun c hc => by
    rw [(hoursText_chars (fun _ => secondsText_chars) c hc).unmarked]
    rfl
  have hdate := date?_text hy hm hd
  have hlength := dateText_length hy hm hd
  have hlong : ¬ (t.date.text.toList ++ 'T' :: (hoursText t.hour t.minute
      (secondsText t.second t.microsecond) ++ zoneText t)).length < 7 := by
    rw [List.length_append, hlength]
    omega
  unfold ofText?
  rw [text_toList]
  simp only [dateLength_text hy hm hd, List.take_left' hlength, List.drop_left' hlength, hdate,
    if_neg hlong, Option.bind_eq_bind, Option.bind_some]
  rw [List.takeWhile_append_of_pos hunmarked, List.dropWhile_append_of_pos hunmarked]
  rcases zoneText_cases t with ⟨ho, hz⟩ | ⟨o, sign, cs, ho, hz, htext, hmark, _, _⟩
  · have hvalid := h.valid
    obtain ⟨date, hour, minute, second, micro, offset⟩ := t
    cases ho
    rw [hz, List.takeWhile_nil, List.dropWhile_nil, List.append_nil, hclock]
    exact if_pos hvalid
  · have hzone := zone?_offsetText (hoffset o ho) (h.offset o ho)
    have hvalid := h.valid
    have htake : (sign :: cs).takeWhile (!isZoneMark ·) = [] := by simp [hmark]
    have hdrop : (sign :: cs).dropWhile (!isZoneMark ·) = sign :: cs := by simp [hmark]
    obtain ⟨date, hour, minute, second, micro, offset⟩ := t
    cases ho
    rw [htext] at hzone
    rw [hz, htake, hdrop, List.append_nil, hclock, Option.bind_some]
    dsimp only
    rw [hzone]
    exact if_pos hvalid

theorem Clock.size_cases (t : Clock) : t.size = 0 ∨ 1000000 ≤ t.size := by
  unfold Clock.size
  dsimp only
  split
  · exact .inl rfl
  · exact .inr (by omega)

theorem zone?_cases {cs : List Char} {o : Int} (h : zone? cs = some o) :
    o = 0 ∨ 1000000 ≤ o.natAbs := by
  unfold zone? at h
  split at h
  · exact .inl (Option.some.inj h).symm
  · cases h
  · rename_i sign r _ _
    obtain ⟨⟨t, whole⟩, -, h⟩ := Option.bind_eq_some_iff.mp h
    have hsize := t.size_cases
    cases whole with
    | false => cases h
    | true =>
        have h : some (if sign == '-' then -t.size else t.size) = some o := h
        split at h
        · obtain rfl := Option.some.inj h
          omega
        · obtain rfl := Option.some.inj h
          omega
  · cases h

theorem readable_of_checked {t t' : Moment} (ho : ∀ o, t.offset = some o → o = 0 ∨ 1000000 ≤ o.natAbs)
    (h : (if t.isValid then some t else none) = some t') : t'.Readable := by
  split at h
  · rename_i hvalid
    cases h
    exact ⟨hvalid, ho⟩
  · cases h

theorem ofText?_readable {s : String} {t : Moment} (h : ofText? s = some t) : t.Readable := by
  unfold ofText? at h
  dsimp only at h
  split at h
  · cases h
  · obtain ⟨date, -, h⟩ := Option.bind_eq_some_iff.mp h
    split at h
    · refine readable_of_checked ?_ h
      rintro _ ⟨⟩
    · obtain ⟨⟨clock, whole⟩, -, h⟩ := Option.bind_eq_some_iff.mp h
      dsimp only at h
      split at h
      · cases whole with
        | false => cases h
        | true =>
            refine readable_of_checked ?_ h
            rintro _ ⟨⟩
      · obtain ⟨offset, hoffset, h⟩ := Option.bind_eq_some_iff.mp h
        refine readable_of_checked (fun o ho => ?_) h
        obtain ⟨o', hzone, rfl⟩ := Option.map_eq_some_iff.mp hoffset
        cases ho
        exact zone?_cases hzone

theorem dateText_zoneless {d : Date} {c : Char} (h : c ∈ d.text.toList) : c ≠ 'Z' := by
  rw [dateText_toList] at h
  rcases List.mem_append.mp h with h | h
  · exact isDigit_ne (padded_isDigit h) (by decide)
  · rcases List.mem_cons.mp h with rfl | h
    · decide
    · rcases List.mem_append.mp h with h | h
      · exact isDigit_ne (padded_isDigit h) (by decide)
      · rcases List.mem_cons.mp h with rfl | h
        · decide
        · exact isDigit_ne (padded_isDigit h) (by decide)

theorem IsClockChar.zoneless {c : Char} (h : IsClockChar c) : c ≠ 'Z' := by
  rintro rfl
  exact absurd h.unmarked (by decide)

theorem zoneText_zoneless {t : Moment} {c : Char} (h : c ∈ t.zoneText) : c ≠ 'Z' := by
  rcases t.zoneText_cases with ⟨-, hz⟩ | ⟨o, sign, cs, -, hz, -, -, hsign, hcs⟩
  · rw [hz] at h
    cases h
  · rw [hz] at h
    rcases List.mem_cons.mp h with rfl | h
    · exact hsign
    · exact (hcs c h).zoneless

/-- The standard text never uses the mark for universal time. -/
theorem text_zoneless {t : Moment} {c : Char} (h : c ∈ t.text.toList) : c ≠ 'Z' := by
  rw [text_toList] at h
  rcases List.mem_append.mp h with h | h
  · exact dateText_zoneless h
  · rcases List.mem_cons.mp h with rfl | h
    · decide
    · rcases List.mem_append.mp h with h | h
      · exact (hoursText_chars (fun _ => secondsText_chars) c h).zoneless
      · exact zoneText_zoneless h

theorem text_ne_empty (t : Moment) : t.text ≠ "" := by
  intro h
  have hnil : t.text.toList = [] := by rw [h]; rfl
  rw [text_toList] at hnil
  simp at hnil

end Moment

namespace Value

theorem toMoment?_text {t : Moment} (h : t.Readable) : (Value.str t.text).toMoment? = some t := by
  have hkept : (t.text.toList.flatMap fun c => if c = 'Z' then "+00:00".toList else [c]) =
      t.text.toList := by
    rw [List.flatMap_congr fun c hc => if_neg (Moment.text_zoneless hc)]
    exact List.flatMap_singleton' _
  have htruthy : ¬ (!(Value.str t.text).truthy) = true := by
    simp [truthy, t.text_ne_empty]
  unfold toMoment?
  rw [if_neg htruthy]
  change Moment.ofText? (String.ofList (t.text.toList.flatMap _)) = some t
  rw [hkept, String.ofList_toList]
  exact Moment.ofText?_text h

theorem toMoment?_readable {v : Value} {t : Moment} (hv : ∀ u, v ≠ .moment u)
    (h : v.toMoment? = some t) : t.Readable := by
  unfold toMoment? at h
  split at h
  · cases h
  · split at h
    · exact absurd rfl (hv _)
    · exact Moment.ofText?_readable h

end Value

end GuidedJourney
