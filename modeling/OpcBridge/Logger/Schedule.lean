import Mathlib.Data.Int.ConditionallyCompleteOrder
import Mathlib.Data.Int.Interval
import OpcBridge.Core.Scanf
import OpcBridge.Lib.Calendar
import OpcBridge.Lib.Visits

/-!
# When a job runs next

`next_from_calendar` of `opcbridge-logger/opcbridge_logger.cpp`: three kinds of schedules, each with
a loop over candidate times that are the local time with some fields changed. Local time is at a
fixed offset from UTC, and times are integers of any size.

Each loop starts no later than its first match and contains one, so the result is the least slot
(`next_least`). The texts are recognised by `sscanf`, which accepts more than the three forms:
`Loose` are the texts for which that matters.
-/

namespace OpcBridge.Logger

open OpcBridge Lib

/-! ## Local time -/

/-- The fields of `struct tm` that are used. -/
structure Tm where
  sec : Int
  min : Int
  hour : Int
  mday : Int
  mon : Int
  year : Int

/-- `localtime_r` -/
def localtime (offset t : Int) : Tm :=
  let date := civil ((t + offset) / 86400)
  { sec := (t + offset) % 60
    min := (t + offset) % 3600 / 60
    hour := (t + offset) % 86400 / 3600
    mday := date.day
    mon := date.month - 1
    year := date.year - 1900 }

/-- `mktime`, which takes fields that are out of range. -/
def mktime (offset : Int) (tm : Tm) : Int :=
  dayNumber ⟨tm.year + 1900 + tm.mon / 12, tm.mon % 12 + 1, tm.mday⟩ * 86400 + tm.hour * 3600 +
    tm.min * 60 + tm.sec - offset

theorem mktime_localtime (offset t sec min hour mday : Int) :
    mktime offset { localtime offset t with sec, min, hour, mday } =
      ((t + offset) / 86400 + (mday - (localtime offset t).mday)) * 86400 + hour * 3600 + min * 60 +
        sec - offset := by
  have hmonth := civil_month ((t + offset) / 86400)
  have hdate : (⟨(civil ((t + offset) / 86400)).year - 1900 + 1900 +
      ((civil ((t + offset) / 86400)).month - 1) / 12,
      ((civil ((t + offset) / 86400)).month - 1) % 12 + 1, mday⟩ : Civil) =
      { civil ((t + offset) / 86400) with day := mday } := by
    rw [Civil.mk.injEq]
    refine ⟨?_, ?_, rfl⟩ <;> omega
  rw [mktime, localtime]
  dsimp only
  rw [hdate, dayNumber_day, dayNumber_civil]

/-! ## Schedules -/

inductive Form
  | every (minutes : Int)
  | hourly (minute second : Int)
  | daily (hour minute second : Int)
  deriving DecidableEq

def Form.InRange : Form → Prop
  | .every n => 0 < n ∧ n ≤ 1440
  | .hourly m s => (0 ≤ m ∧ m ≤ 59) ∧ 0 ≤ s ∧ s ≤ 59
  | .daily h m s => (0 ≤ h ∧ h ≤ 23) ∧ (0 ≤ m ∧ m ≤ 59) ∧ 0 ≤ s ∧ s ≤ 59

instance : ∀ f : Form, Decidable f.InRange
  | .every _ => inferInstanceAs (Decidable (_ ∧ _))
  | .hourly .. => inferInstanceAs (Decidable (_ ∧ _))
  | .daily .. => inferInstanceAs (Decidable (_ ∧ _))

section
variable [ScanLib]

def everyForm (s : String) : Option Form :=
  match sscanf "*-*-* *:0/%d:00" s with
  | [every] => if Form.InRange (.every every) then some (.every every) else none
  | _ => none

def hourlyForm (s : String) : Option Form :=
  match sscanf "*-*-* *:%d:%d" s with
  | [minute, second] =>
    if Form.InRange (.hourly minute second) then some (.hourly minute second) else none
  | _ => none

def dailyForm (s : String) : Option Form :=
  match sscanf "*-*-* %d:%d:%d" s with
  | [hour, minute, second] =>
    if Form.InRange (.daily hour minute second) then some (.daily hour minute second) else none
  | _ => none

/-- The first format that matches. -/
def calendarForm (s : String) : Option Form :=
  (everyForm s).or ((hourlyForm s).or (dailyForm s))

end

/-- The number of rounds of the loop. -/
def Form.rounds : Form → Nat
  | .every _ => 1445
  | .hourly .. => 25
  | .daily .. => 3

/-- The candidate of a round, from the local time `tm`. -/
def Form.candidate (offset : Int) (tm : Tm) : Form → Nat → Int
  | .every _, i => mktime offset { tm with sec := 0, min := tm.min + i }
  | .hourly m s, i => mktime offset { tm with min := m, sec := s, hour := tm.hour + i }
  | .daily h m s, i => mktime offset { tm with hour := h, min := m, sec := s, mday := tm.mday + i }

/-- The test on a candidate besides its time; only the first loop has one. -/
def Form.check (offset t : Int) : Form → Bool
  | .every n => (localtime offset t).min % n == 0
  | _ => true

/-- The loop: the first candidate after the time, or 0. -/
def Form.next (offset afterMs : Int) (f : Form) : Int :=
  let tm := localtime offset (afterMs.tdiv 1000 + 1)
  let candidates := (List.range f.rounds).map (f.candidate offset tm)
  (candidates.find? fun t => f.check offset t && decide (afterMs < t * 1000)).elim 0 (· * 1000)

/-- The next time, and whether the schedule is supported. -/
def nextFromCalendar [ScanLib] (offset : Int) (cal : String) (afterMs : Int) : Int × Bool :=
  let s := trimCopy cal
  if s = "" then (0, false)
  else
    match calendarForm s with
    | some f => (f.next offset afterMs, true)
    | none => (0, false)

/-! ## Slots -/

/-- The local time matches. -/
def Form.Fits (tm : Tm) : Form → Prop
  | .every n => n ∣ tm.min ∧ tm.sec = 0
  | .hourly m s => tm.min = m ∧ tm.sec = s
  | .daily h m s => tm.hour = h ∧ tm.min = m ∧ tm.sec = s

/-- The instants of a schedule, in milliseconds. -/
def Form.slots (offset : Int) (f : Form) : Set Int :=
  {x | ∃ t, x = t * 1000 ∧ f.Fits (localtime offset t)}

/-- The first of the candidates that fit is the least, if the candidates go up and miss nothing. -/
theorem find_least {count : Nat} {t : Nat → Int} {P : Int → Prop} (test : Int → Bool)
    (hmono : Monotone t) (htest : ∀ i, test (t i) = true ↔ P (t i))
    (hcover : ∀ x, P x → ∃ i, x = t i) (hsome : ∃ i < count, P (t i)) :
    ∃ x, ((List.range count).map t).find? test = some x ∧ P x ∧ ∀ y, P y → x ≤ y := by
  classical
  have hfirst := Nat.find_spec hsome
  obtain ⟨hlt, hP⟩ := hfirst
  have hmin : ∀ j < Nat.find hsome, ¬ P (t j) := fun j hj hPj =>
    Nat.find_min hsome hj ⟨hj.trans hlt, hPj⟩
  refine ⟨t (Nat.find hsome), ?_, hP, fun y hy => ?_⟩
  · rw [List.find?_map, List.find?_range_eq_some.2, Option.map_some]
    refine ⟨(htest _).2 hP, List.mem_range.2 hlt, fun j hj => ?_⟩
    have hno := hmin j hj
    rw [← htest] at hno
    simpa using hno
  · obtain ⟨i, rfl⟩ := hcover y hy
    refine hmono (not_lt.1 fun hi => hmin i hi hy)

/-! ## The candidates -/

section
variable {offset afterMs : Int}

/-- The first whole second after a time. -/
theorem after_iff (h : 0 ≤ afterMs) (t : Int) :
    afterMs < t * 1000 ↔ afterMs.tdiv 1000 + 1 ≤ t := by
  rw [Int.tdiv_eq_ediv_of_nonneg h]
  omega

theorem candidate_eq (f : Form) (t : Int) (i : Nat) :
    f.candidate offset (localtime offset t) i =
      match f with
      | .every _ => (t + offset) / 60 * 60 + i * 60 - offset
      | .hourly m s => (t + offset) / 3600 * 3600 + i * 3600 + m * 60 + s - offset
      | .daily h m s =>
        (t + offset) / 86400 * 86400 + i * 86400 + h * 3600 + m * 60 + s - offset := by
  cases f with
  | every n =>
    refine (mktime_localtime offset t 0 _ (localtime offset t).hour _).trans ?_
    simp only [localtime]
    omega
  | hourly m s =>
    refine (mktime_localtime offset t s m _ (localtime offset t).mday).trans ?_
    simp only [localtime]
    omega
  | daily h m s =>
    refine (mktime_localtime offset t s m h _).trans ?_
    dsimp only
    omega

theorem candidate_mono (f : Form) (start : Int) :
    Monotone (f.candidate offset (localtime offset start)) := by
  intro i j hij
  rw [candidate_eq, candidate_eq]
  cases f <;> dsimp only <;> omega

/-- A candidate has the fields that the schedule sets. -/
theorem check_iff {f : Form} (hf : f.InRange) (start : Int) (i : Nat) :
    f.check offset (f.candidate offset (localtime offset start) i) = true ↔
      f.Fits (localtime offset (f.candidate offset (localtime offset start) i)) := by
  rw [candidate_eq]
  cases f with
  | every n =>
    have hsec : (localtime offset ((start + offset) / 60 * 60 + i * 60 - offset)).sec = 0 := by
      simp only [localtime]
      omega
    simp only [Form.check, Form.Fits, beq_iff_eq, hsec, and_true]
    exact Int.dvd_iff_emod_eq_zero.symm
  | hourly m s =>
    simp only [Form.InRange] at hf
    simp only [Form.check, Form.Fits, localtime, true_iff]
    omega
  | daily h m s =>
    simp only [Form.InRange] at hf
    simp only [Form.check, Form.Fits, localtime, true_iff]
    omega

/-- No slot from the start on is missed. -/
theorem candidate_cover {f : Form} {start x : Int} (hx : f.Fits (localtime offset x))
    (hstart : start ≤ x) : ∃ i, x = f.candidate offset (localtime offset start) i := by
  cases f with
  | every n =>
    refine ⟨((x + offset) / 60 - (start + offset) / 60).toNat, ?_⟩
    simp only [Form.Fits, localtime] at hx
    rw [candidate_eq]
    dsimp only
    omega
  | hourly m s =>
    refine ⟨((x + offset) / 3600 - (start + offset) / 3600).toNat, ?_⟩
    simp only [Form.Fits, localtime] at hx
    rw [candidate_eq]
    dsimp only
    omega
  | daily h m s =>
    refine ⟨((x + offset) / 86400 - (start + offset) / 86400).toNat, ?_⟩
    simp only [Form.Fits, localtime] at hx
    rw [candidate_eq]
    dsimp only
    omega

/-- The loop goes far enough. -/
theorem candidate_found {f : Form} (hf : f.InRange) (start : Int) : ∃ i < f.rounds,
    f.Fits (localtime offset (f.candidate offset (localtime offset start) i)) ∧
      start ≤ f.candidate offset (localtime offset start) i := by
  cases f with
  | every n =>
    -- the next full hour is a multiple of everything
    refine ⟨(60 - (start + offset) / 60 % 60).toNat, ?_, ?_⟩
    · simp only [Form.rounds]
      omega
    · rw [candidate_eq]
      simp only [Form.Fits, localtime]
      refine ⟨⟨Int.dvd_of_emod_eq_zero ?_, ?_⟩, ?_⟩
      · have hhour : ((start + offset) / 60 * 60 +
            ((60 - (start + offset) / 60 % 60).toNat : Int) * 60 - offset + offset) % 3600 / 60 =
              0 := by omega
        rw [hhour, Int.zero_emod]
      · omega
      · omega
  | hourly m s =>
    refine ⟨1, (by simp [Form.rounds]), (check_iff hf start 1).1 rfl, ?_⟩
    simp only [Form.InRange] at hf
    rw [candidate_eq]
    dsimp only
    omega
  | daily h m s =>
    refine ⟨1, (by simp [Form.rounds]), (check_iff hf start 1).1 rfl, ?_⟩
    simp only [Form.InRange] at hf
    rw [candidate_eq]
    dsimp only
    omega

/-- **The next slot.** -/
theorem next_least {f : Form} (hf : f.InRange) (h : 0 ≤ afterMs) :
    IsLeast {x | x ∈ f.slots offset ∧ afterMs < x} (f.next offset afterMs) := by
  have hafter := after_iff h
  unfold Form.next
  dsimp only
  generalize afterMs.tdiv 1000 + 1 = start at hafter ⊢
  have htest : ∀ i, (f.check offset (f.candidate offset (localtime offset start) i) &&
      decide (afterMs < f.candidate offset (localtime offset start) i * 1000)) = true ↔
        f.Fits (localtime offset (f.candidate offset (localtime offset start) i)) ∧
          start ≤ f.candidate offset (localtime offset start) i := by
    intro i
    rw [Bool.and_eq_true, decide_eq_true_eq, check_iff hf, hafter]
  obtain ⟨x, hx, ⟨hfits, hstart⟩, hmin⟩ :=
    find_least (P := fun t => f.Fits (localtime offset t) ∧ start ≤ t)
      (fun t => f.check offset t && decide (afterMs < t * 1000)) (candidate_mono f start) htest
      (fun y hy => candidate_cover hy.1 hy.2) (candidate_found hf start)
  rw [hx]
  refine ⟨⟨⟨x, rfl, hfits⟩, (hafter x).2 hstart⟩, fun y hy => ?_⟩
  obtain ⟨⟨z, rfl, hz⟩, hlt⟩ := hy
  have hle := hmin z ⟨hz, (hafter z).1 hlt⟩
  show x * 1000 ≤ z * 1000
  omega

end

/-! ## Texts -/

/-- A number in decimal digits. -/
structure Numeral (ds : List Char) (n : Int) : Prop where
  ne_nil : ds ≠ []
  digits : ∀ c ∈ ds, isDigit c = true
  value : n = digitsVal ds

/-- The text is written in one of the three forms. -/
inductive Form.Written : Form → List Char → Prop
  | every {ns : List Char} {n : Int} (hn : Numeral ns n) :
      Written (.every n) ("*-*-*".toList ++ ' ' :: ("*:0/".toList ++ (ns ++ ":00".toList)))
  | hourly {ms ss : List Char} {m s : Int} (hm : Numeral ms m) (hs : Numeral ss s) :
      Written (.hourly m s) ("*-*-*".toList ++ ' ' :: ("*:".toList ++ (ms ++ ':' :: ss)))
  | daily {hours ms ss : List Char} {h m s : Int} (hh : Numeral hours h) (hm : Numeral ms m)
      (hs : Numeral ss s) :
      Written (.daily h m s) ("*-*-*".toList ++ ' ' :: (hours ++ ':' :: (ms ++ ':' :: ss)))

section
variable [ScanLib]

/-- `sscanf` reads the numbers of the form. -/
def Form.Scanned (cs : List Char) : Form → Prop
  | .every n => Scans (directives "*-*-* *:0/%d:00".toList) cs [n]
  | .hourly m s => Scans (directives "*-*-* *:%d:%d".toList) cs [m, s]
  | .daily h m s => Scans (directives "*-*-* %d:%d:%d".toList) cs [h, m, s]

/-- The text is read like one of the forms and is not written so. -/
def Loose (cs : List Char) : Prop := ∃ f : Form, f.InRange ∧ f.Scanned cs ∧ ¬ f.Written cs

theorem scanInt_star (cs : List Char) : scanInt ('*' :: cs) = none := by
  simp [scanInt, takeSign, isSpace, isDigit]

theorem scanInt_slash (cs : List Char) :
    scanInt ('0' :: '/' :: cs) = some (toInt 0, '/' :: cs) := by
  simp [scanInt, takeSign, isSpace, isDigit, signed, digitsVal]

/-- All formats begin alike. -/
theorem reads_stars {ds : List Directive} {cs : List Char} {n : Int} {ns : List Int} :
    Scans (directives "*-*-* ".toList ++ ds) cs (n :: ns) ↔
      ∃ rest, cs = "*-*-*".toList ++ rest ∧ Scans ds (rest.dropWhile isSpace) (n :: ns) := by
  show Scans (.char '*' :: .char '-' :: .char '*' :: .char '-' :: .char '*' :: .blank :: ds) _ _ ↔ _
  simp only [reads_char, reads_blank]
  constructor
  · rintro ⟨_, rfl, _, rfl, _, rfl, _, rfl, rest, rfl, hrest⟩
    exact ⟨rest, rfl, hrest⟩
  · rintro ⟨rest, rfl, hrest⟩
    exact ⟨_, rfl, _, rfl, _, rfl, _, rfl, rest, rfl, hrest⟩

/-- What the formats say. -/
theorem scanned_every {cs : List Char} {n : Int} : (Form.every n).Scanned cs ↔
    ∃ rest, cs = "*-*-*".toList ++ rest ∧ ∃ tail, rest.dropWhile isSpace = "*:0/".toList ++ tail ∧
      ∃ rest', scanInt tail = some (n, rest') := by
  refine reads_stars.trans (exists_congr fun rest => and_congr_right' ?_)
  show Scans [.char '*', .char ':', .char '0', .char '/', .int, .char ':', .char '0', .char '0']
    _ _ ↔ _
  simp only [reads_char, reads_int]
  constructor
  · rintro ⟨_, hstar, _, rfl, _, rfl, tail, rfl, rest', hint, -⟩
    exact ⟨tail, hstar, rest', hint⟩
  · rintro ⟨tail, hstar, rest', hint⟩
    exact ⟨_, hstar, _, rfl, _, rfl, tail, rfl, rest', hint, .done rfl⟩

theorem scanned_hourly {cs : List Char} {m s : Int} : (Form.hourly m s).Scanned cs ↔
    ∃ rest, cs = "*-*-*".toList ++ rest ∧ ∃ tail, rest.dropWhile isSpace = "*:".toList ++ tail ∧
      ∃ mid, scanInt tail = some (m, ':' :: mid) ∧ ∃ rest', scanInt mid = some (s, rest') := by
  refine reads_stars.trans (exists_congr fun rest => and_congr_right' ?_)
  show Scans [.char '*', .char ':', .int, .char ':', .int] _ _ ↔ _
  simp only [reads_char, reads_int]
  constructor
  · rintro ⟨_, hstar, tail, rfl, _, hint, mid, rfl, rest', hint', -⟩
    exact ⟨tail, hstar, mid, hint, rest', hint'⟩
  · rintro ⟨tail, hstar, mid, hint, rest', hint'⟩
    exact ⟨_, hstar, tail, rfl, _, hint, mid, rfl, rest', hint', .done rfl⟩

theorem scanned_daily {cs : List Char} {h m s : Int} : (Form.daily h m s).Scanned cs ↔
    ∃ rest, cs = "*-*-*".toList ++ rest ∧
      ∃ ms, scanInt (rest.dropWhile isSpace) = some (h, ':' :: ms) ∧
      ∃ ss, scanInt ms = some (m, ':' :: ss) ∧ ∃ rest', scanInt ss = some (s, rest') := by
  refine reads_stars.trans (exists_congr fun rest => and_congr_right' ?_)
  show Scans [.int, .char ':', .int, .char ':', .int] _ _ ↔ _
  simp only [reads_char, reads_int]
  constructor
  · rintro ⟨_, hint, ms, rfl, _, hint', ss, rfl, rest', hint'', -⟩
    exact ⟨ms, hint, ss, hint', rest', hint''⟩
  · rintro ⟨ms, hint, ss, hint', rest', hint''⟩
    exact ⟨_, hint, ms, rfl, _, hint', ss, rfl, rest', hint'', .done rfl⟩

/-- No text is read as two kinds of forms. -/
theorem not_every_hourly {cs : List Char} {n m s : Int} (h : (Form.every n).Scanned cs)
    (h' : (Form.hourly m s).Scanned cs) : False := by
  obtain ⟨rest, rfl, tail, htail, -⟩ := scanned_every.1 h
  obtain ⟨rest', heq, tail', htail', mid, hint, -⟩ := scanned_hourly.1 h'
  obtain rfl := List.append_cancel_left heq
  have hsame : "*:".toList ++ '0' :: '/' :: tail = "*:".toList ++ tail' := htail.symm.trans htail'
  obtain rfl := List.append_cancel_left hsame
  rw [scanInt_slash] at hint
  cases (Prod.mk.inj (Option.some.inj hint)).2

theorem not_star_daily {cs rest : List Char} {h m s : Int}
    (hstar : ∃ tail, rest.dropWhile isSpace = '*' :: tail) (heq : cs = "*-*-*".toList ++ rest)
    (h' : (Form.daily h m s).Scanned cs) : False := by
  obtain ⟨rest', heq', ms, hint, -⟩ := scanned_daily.1 h'
  obtain rfl := List.append_cancel_left (heq.symm.trans heq')
  obtain ⟨tail, htail⟩ := hstar
  rw [htail, scanInt_star] at hint
  cases hint

theorem everyForm_iff {s : String} {f : Form} :
    everyForm s = some f ↔ f.InRange ∧ f.Scanned s.toList ∧ ∃ n, f = .every n := by
  unfold everyForm
  constructor
  · intro h
    split at h
    · rename_i n hscan
      split at h
      · rename_i hrange
        obtain rfl := Option.some.inj h
        exact ⟨hrange, (scanf_iff rfl).1 hscan, n, rfl⟩
      · cases h
    · cases h
  · rintro ⟨hrange, hscanned, n, rfl⟩
    have hscan : sscanf "*-*-* *:0/%d:00" s = [n] := (scanf_iff rfl).2 hscanned
    simp only [hscan, if_pos hrange]

theorem hourlyForm_iff {s : String} {f : Form} :
    hourlyForm s = some f ↔ f.InRange ∧ f.Scanned s.toList ∧ ∃ minute second,
      f = .hourly minute second := by
  unfold hourlyForm
  constructor
  · intro h
    split at h
    · rename_i minute second hscan
      split at h
      · rename_i hrange
        obtain rfl := Option.some.inj h
        exact ⟨hrange, (scanf_iff rfl).1 hscan, minute, second, rfl⟩
      · cases h
    · cases h
  · rintro ⟨hrange, hscanned, minute, second, rfl⟩
    have hscan : sscanf "*-*-* *:%d:%d" s = [minute, second] := (scanf_iff rfl).2 hscanned
    simp only [hscan, if_pos hrange]

theorem dailyForm_iff {s : String} {f : Form} :
    dailyForm s = some f ↔ f.InRange ∧ f.Scanned s.toList ∧ ∃ hour minute second,
      f = .daily hour minute second := by
  unfold dailyForm
  constructor
  · intro h
    split at h
    · rename_i hour minute second hscan
      split at h
      · rename_i hrange
        obtain rfl := Option.some.inj h
        exact ⟨hrange, (scanf_iff rfl).1 hscan, hour, minute, second, rfl⟩
      · cases h
    · cases h
  · rintro ⟨hrange, hscanned, hour, minute, second, rfl⟩
    have hscan : sscanf "*-*-* %d:%d:%d" s = [hour, minute, second] := (scanf_iff rfl).2 hscanned
    simp only [hscan, if_pos hrange]

theorem calendarForm_iff {s : String} {f : Form} :
    calendarForm s = some f ↔ f.InRange ∧ f.Scanned s.toList := by
  unfold calendarForm
  constructor
  · intro h
    rcases Option.or_eq_some_iff.1 h with h | ⟨-, h⟩
    · exact ⟨(everyForm_iff.1 h).1, (everyForm_iff.1 h).2.1⟩
    · rcases Option.or_eq_some_iff.1 h with h | ⟨-, h⟩
      · exact ⟨(hourlyForm_iff.1 h).1, (hourlyForm_iff.1 h).2.1⟩
      · exact ⟨(dailyForm_iff.1 h).1, (dailyForm_iff.1 h).2.1⟩
  · intro ⟨hrange, hscanned⟩
    cases f with
    | every n =>
      rw [everyForm_iff.2 ⟨hrange, hscanned, n, rfl⟩]
      rfl
    | hourly minute second =>
      have hevery : everyForm s = none := by
        refine Option.eq_none_iff_forall_ne_some.2 fun g hg => ?_
        obtain ⟨-, hg, n, rfl⟩ := everyForm_iff.1 hg
        exact not_every_hourly hg hscanned
      rw [hevery, hourlyForm_iff.2 ⟨hrange, hscanned, minute, second, rfl⟩]
      rfl
    | daily hour minute second =>
      have hevery : everyForm s = none := by
        refine Option.eq_none_iff_forall_ne_some.2 fun g hg => ?_
        obtain ⟨-, hg, n, rfl⟩ := everyForm_iff.1 hg
        obtain ⟨rest, heq, tail, htail, -⟩ := scanned_every.1 hg
        exact not_star_daily ⟨_, htail⟩ heq hscanned
      have hhourly : hourlyForm s = none := by
        refine Option.eq_none_iff_forall_ne_some.2 fun g hg => ?_
        obtain ⟨-, hg, m, s', rfl⟩ := hourlyForm_iff.1 hg
        obtain ⟨rest, heq, tail, htail, -⟩ := scanned_hourly.1 hg
        exact not_star_daily ⟨_, htail⟩ heq hscanned
      rw [hevery, hhourly, dailyForm_iff.2 ⟨hrange, hscanned, hour, minute, second, rfl⟩]
      rfl

theorem scanInt_numeral {ds rest : List Char} {n : Int} (hn : Numeral ds n)
    (hsmall : n ≤ 2147483647) (hrest : Starts isDigit rest) :
    scanInt (ds ++ rest) = some (n, rest) := by
  refine scanInt_iff.2 ⟨ds, rfl, ?_, hrest⟩
  have htext := @IntText.mk _ [] [] ds false (by simp) (.inl ⟨rfl, rfl⟩) hn.ne_nil hn.digits
  have hvalue : toInt (signed false (digitsVal ds)) = n := by
    rw [signed, if_neg Bool.false_ne_true, ← hn.value, toInt, if_pos]
    rw [hn.value] at hsmall ⊢
    omega
  rw [hvalue] at htext
  exact htext

omit [ScanLib] in
theorem starts_colon (rest : List Char) : Starts isDigit (':' :: rest) := by
  simp [Starts, isDigit]

omit [ScanLib] in
theorem starts_nil : Starts isDigit [] := by simp [Starts]

omit [ScanLib] in
/-- A number in digits is not skipped as a blank. -/
theorem Numeral.dropWhile {ds : List Char} {n : Int} (hn : Numeral ds n) (rest : List Char) :
    (ds ++ rest).dropWhile isSpace = ds ++ rest := by
  obtain ⟨d, ds', rfl⟩ := List.exists_cons_of_ne_nil hn.ne_nil
  simp [(isDigit_spec (hn.digits d List.mem_cons_self)).1]

theorem scanned_of_written {cs : List Char} {f : Form} (hf : f.InRange) (h : f.Written cs) :
    f.Scanned cs := by
  cases h with
  | @every ns n hn =>
    simp only [Form.InRange] at hf
    exact scanned_every.2 ⟨_, rfl, _, rfl, _, scanInt_numeral hn (by omega) (starts_colon _)⟩
  | @hourly ms ss m s hm hs =>
    simp only [Form.InRange] at hf
    refine scanned_hourly.2 ⟨_, rfl, _, rfl, _, scanInt_numeral hm (by omega) (starts_colon _),
      [], ?_⟩
    rw [← List.append_nil ss]
    exact scanInt_numeral hs (by omega) starts_nil
  | @daily hours ms ss h m s hh hm hs =>
    simp only [Form.InRange] at hf
    refine scanned_daily.2 ⟨_, rfl, ms ++ ':' :: ss, ?_, ss,
      scanInt_numeral hm (by omega) (starts_colon _), [], ?_⟩
    · show scanInt ((hours ++ ':' :: (ms ++ ':' :: ss)).dropWhile isSpace) = _
      rw [hh.dropWhile]
      exact scanInt_numeral hh (by omega) (starts_colon _)
    · rw [← List.append_nil ss]
      exact scanInt_numeral hs (by omega) starts_nil

/-- A text that is written in a form is read as nothing else. -/
theorem not_loose {cs : List Char} {f : Form} (hf : f.InRange) (h : f.Written cs) : ¬ Loose cs := by
  intro ⟨g, hg, hscanned, hloose⟩
  have hread : ∀ g : Form, g.InRange → g.Scanned cs → calendarForm (String.ofList cs) = some g := by
    intro g hg hscanned
    exact calendarForm_iff.2 ⟨hg, by rwa [String.toList_ofList]⟩
  have hsame := hread g hg hscanned
  rw [hread f hf (scanned_of_written hf h)] at hsame
  exact hloose (Option.some.inj hsame ▸ h)

omit [ScanLib] in
theorem written_chars {cs : List Char} {f : Form} (h : f.Written cs) :
    ∀ c ∈ cs, isDigit c = true ∨ c ∈ ['*', '-', ' ', ':', '/', '0'] := by
  cases h with
  | every hn =>
    intro c hc
    simp only [List.mem_append, List.mem_cons] at hc
    rcases hc with hc | rfl | hc | hc | hc
    · exact .inr ((by decide : ∀ c ∈ "*-*-*".toList, c ∈ ['*', '-', ' ', ':', '/', '0']) c hc)
    · simp
    · exact .inr ((by decide : ∀ c ∈ "*:0/".toList, c ∈ ['*', '-', ' ', ':', '/', '0']) c hc)
    · exact .inl (hn.digits c hc)
    · exact .inr ((by decide : ∀ c ∈ ":00".toList, c ∈ ['*', '-', ' ', ':', '/', '0']) c hc)
  | hourly hm hs =>
    intro c hc
    simp only [List.mem_append, List.mem_cons] at hc
    rcases hc with hc | rfl | hc | hc | rfl | hc
    · exact .inr ((by decide : ∀ c ∈ "*-*-*".toList, c ∈ ['*', '-', ' ', ':', '/', '0']) c hc)
    · simp
    · exact .inr ((by decide : ∀ c ∈ "*:".toList, c ∈ ['*', '-', ' ', ':', '/', '0']) c hc)
    · exact .inl (hm.digits c hc)
    · simp
    · exact .inl (hs.digits c hc)
  | daily hh hm hs =>
    intro c hc
    simp only [List.mem_append, List.mem_cons] at hc
    rcases hc with hc | rfl | hc | rfl | hc | rfl | hc
    · exact .inr ((by decide : ∀ c ∈ "*-*-*".toList, c ∈ ['*', '-', ' ', ':', '/', '0']) c hc)
    · simp
    · exact .inl (hh.digits c hc)
    · simp
    · exact .inl (hm.digits c hc)
    · simp
    · exact .inl (hs.digits c hc)

/-! ## Every schedule -/

/-- What a schedule text promises at a time. -/
structure ScheduleLaw (offset : Int) (cal : String) (afterMs : Int) : Prop where
  supported : (nextFromCalendar offset cal afterMs).2 = true ↔
    ∃ f : Form, f.InRange ∧ f.Written (trimCopy cal).toList
  least : ∀ f : Form, f.InRange → f.Written (trimCopy cal).toList →
    IsLeast {x | x ∈ f.slots offset ∧ afterMs < x} (nextFromCalendar offset cal afterMs).1
  ordered : ∀ f : Form, f.InRange → f.Written (trimCopy cal).toList →
    StrictMono fun n : Nat => (fun t => (nextFromCalendar offset cal t).1)^[n] afterMs
  visited : ∀ f : Form, f.InRange → f.Written (trimCopy cal).toList → ∀ x,
    (x ∈ f.slots offset ∧ afterMs < x ↔
      ∃ n : Nat, (fun t => (nextFromCalendar offset cal t).1)^[n + 1] afterMs = x)

theorem nextFromCalendar_eq {cal : String} {f : Form} (hf : f.InRange)
    (h : f.Scanned (trimCopy cal).toList) (offset afterMs : Int) :
    nextFromCalendar offset cal afterMs = (f.next offset afterMs, true) := by
  have hform := calendarForm_iff.2 ⟨hf, h⟩
  unfold nextFromCalendar
  dsimp only
  rw [hform]
  refine if_neg fun hempty => ?_
  rw [hempty] at hform
  cases hform

theorem supported_iff (offset : Int) (cal : String) (afterMs : Int) :
    (nextFromCalendar offset cal afterMs).2 = true ↔
      ∃ f : Form, f.InRange ∧ f.Scanned (trimCopy cal).toList := by
  constructor
  · intro h
    unfold nextFromCalendar at h
    dsimp only at h
    split at h
    · cases h
    · split at h
      · rename_i f hform
        exact ⟨f, calendarForm_iff.1 hform⟩
      · cases h
  · intro ⟨f, hf, hscanned⟩
    rw [nextFromCalendar_eq hf hscanned]

/-- **When a job runs next.** -/
theorem schedule_next (offset : Int) (cal : String) (afterMs : Int) (hafter : 0 ≤ afterMs) :
    ScheduleLaw offset cal afterMs ↔ ¬ Loose (trimCopy cal).toList := by
  have hnext : ∀ f : Form, f.InRange → f.Written (trimCopy cal).toList →
      IsNext (f.slots offset) 0 fun t => (nextFromCalendar offset cal t).1 := by
    intro f hf hwritten t ht
    dsimp only
    rw [nextFromCalendar_eq hf (scanned_of_written hf hwritten)]
    exact next_least hf ht
  constructor
  · intro hlaw hloose
    obtain ⟨f, hf, hscanned, -⟩ := id hloose
    obtain ⟨g, hg, hwritten⟩ := hlaw.supported.1 ((supported_iff ..).2 ⟨f, hf, hscanned⟩)
    exact not_loose hg hwritten hloose
  · intro hloose
    refine ⟨(supported_iff ..).trans ⟨fun ⟨f, hf, hscanned⟩ => ?_, fun ⟨f, hf, hwritten⟩ => ?_⟩,
      fun f hf hwritten => hnext f hf hwritten afterMs hafter,
      fun f hf hwritten => (hnext f hf hwritten).strictMono hafter,
      fun f hf hwritten x => (hnext f hf hwritten).visits hafter⟩
    · by_contra hnone
      exact hloose ⟨f, hf, hscanned, fun hwritten => hnone ⟨f, hf, hwritten⟩⟩
    · exact ⟨f, hf, scanned_of_written hf hwritten⟩

end

/-! ## Examples -/

section
attribute [local instance] glibcScan

/-- A quarter past six in the morning, five and a half hours ahead of UTC. -/
theorem sunrise_next : ScheduleLaw 19800 "*-*-* 06:15:00" 1700000000000 := by
  refine (schedule_next 19800 "*-*-* 06:15:00" 1700000000000 (by decide)).2 ?_
  have htext : (trimCopy "*-*-* 06:15:00").toList =
      "*-*-*".toList ++ ' ' :: (['0', '6'] ++ ':' :: (['1', '5'] ++ ':' :: ['0', '0'])) := by
    decide +kernel
  rw [htext]
  exact not_loose (by decide) (.daily (h := 6) (m := 15) (s := 0) ⟨by simp, by decide, by decide⟩
    ⟨by simp, by decide, by decide⟩ ⟨by simp, by decide, by decide⟩)

/-- Nothing insists on the end of a text. -/
theorem schedule_unfinished : ¬ ∀ (offset : Int) (cal : String) (afterMs : Int), 0 ≤ afterMs →
    ScheduleLaw offset cal afterMs := by
  intro h
  obtain ⟨f, hf, hwritten⟩ := (h 0 "*-*-* *:0/5xyz" 0 le_rfl).supported.1 (by decide +kernel)
  have hx : 'x' ∈ (trimCopy "*-*-* *:0/5xyz").toList := by decide +kernel
  rcases written_chars hwritten 'x' hx with hdigit | hsign
  · exact absurd hdigit (by decide)
  · exact absurd hsign (by decide)

end

end OpcBridge.Logger
