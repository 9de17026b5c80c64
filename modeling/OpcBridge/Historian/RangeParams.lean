import OpcBridge.Core.Scanf
import OpcBridge.Historian.Tiers
import OpcBridge.Lib.Traverse

/-!
# The ranges of `/summary` and `/query`

The texts of a request are read first (`readRequest`), then the range and the bucket are computed in
64 bits (`Request.answer`). An operation whose exact result is no 64-bit number wraps; `computed`
lists the exact results of the operations that are made.
-/

namespace OpcBridge.Historian

/-! ## 64-bit numbers -/

def minInt64 : Int := -9223372036854775808

def FitsInt64 (n : Int) : Prop := minInt64 ≤ n ∧ n ≤ maxInt64

instance (n : Int) : Decidable (FitsInt64 n) := inferInstanceAs (Decidable (_ ∧ _))

/-- What a 64-bit operation keeps of its exact result. -/
def wrap (n : Int) : Int := n.bmod 18446744073709551616

theorem wrap_eq {n : Int} (h : FitsInt64 n) : wrap n = n := by
  unfold FitsInt64 minInt64 maxInt64 at h
  unfold wrap
  exact Int.bmod_eq_of_le (by omega) (by omega)

/-! ## Reading the texts -/

/-- `std::stoll` of the whole text. -/
def parseInt64 (cs : List Char) : Option Int :=
  let (neg, body) := takeSign (cs.dropWhile isSpace)
  let ds := body.takeWhile isDigit
  if ds.isEmpty || !(body.dropWhile isDigit).isEmpty then none
  else if FitsInt64 (signed neg (digitsVal ds)) then some (signed neg (digitsVal ds)) else none

/-- A quantity and the unit behind it. -/
def readCounted (unit : Char → Option Int) (cs : List Char) : Option (Int × Int) :=
  if cs.length < 2 then none
  else
    match parseInt64 cs.dropLast with
    | none => none
    | some qty => if qty ≤ 0 then none else (cs.getLast?.bind unit).map fun mul => (qty, mul)

def rangeUnit (c : Char) : Option Int :=
  if c = 'm' then some 60000
  else if c = 'h' then some 3600000
  else if c = 'd' then some 86400000
  else none

def durationUnit (c : Char) : Option Int := if c = 's' then some 1000 else rangeUnit c

/-- What `parse_range_ms` subtracts from the end of the range. -/
inductive RangeSpan
  | fixed (ms : Int)
  | counted (qty mul : Int)
deriving DecidableEq

def parseRange (range : String) : Option RangeSpan :=
  let r := if range = "" then "1h" else range
  if r = "hour" then some (.fixed 3600000)
  else if r = "day" then some (.fixed 86400000)
  else if r = "month" then some (.fixed 2592000000)
  else if r = "year" then some (.fixed 31536000000)
  else (readCounted rangeUnit r.toList).map fun x => .counted x.1 x.2

inductive BucketSpan
  | raw
  | auto
  | counted (qty mul : Int)
deriving DecidableEq

/-- `parse_duration_ms` up to its product. -/
def parseBucket (bucket : String) : Option BucketSpan :=
  if bucket = "" ∨ bucket = "raw" then some .raw
  else if bucket = "auto" then some .auto
  else (readCounted durationUnit bucket.toList).map fun x => .counted x.1 x.2

inductive RangeStart
  | given (fromMs : Int)
  | range (span : RangeSpan)
deriving DecidableEq

structure QueryParams where
  connectionId : String := ""
  tagName : String := ""
  fromMs : Option String := none
  toMs : Option String := none
  range : Option String := none
  limit : Option String := none
  bucket : Option String := none

structure Request where
  toMs : Int
  start : RangeStart
  limit : Int := 1000
  bucket : BucketSpan := .raw
deriving DecidableEq

inductive Endpoint
  | summary
  | query
deriving DecidableEq

def invalidRange : String := "Invalid range. Use 15m, 1h, 1d, hour, day, month, or year."

def invalidBucket : String := "Invalid bucket. Use raw, auto, 1m, 5m, 15m, 1h, or similar."

def orError {α : Type} (error : String) : Option α → Except String α
  | some a => .ok a
  | none => .error error

def readStart (p : QueryParams) : Except String RangeStart :=
  match p.fromMs with
  | some s => orError "Invalid from_ms" ((parseInt64 s.toList).map .given)
  | none => orError invalidRange ((parseRange (p.range.getD "1h")).map .range)

def readToMs (p : QueryParams) (now : Int) : Except String Int :=
  match p.toMs with
  | some s => orError "Invalid to_ms" (parseInt64 s.toList)
  | none => .ok now

def readLimit (p : QueryParams) : Except String Int :=
  match p.limit with
  | some s => orError "Invalid limit" (parseInt64 s.toList)
  | none => .ok 1000

/-- The parameters of a request; an error is answered with status 400. -/
def readRequest (endpoint : Endpoint) (p : QueryParams) (now : Int) : Except String Request :=
  if p.connectionId = "" ∨ p.tagName = "" then .error "connection_id and tag_name are required"
  else do
    let toMs ← readToMs p now
    let start ← readStart p
    match endpoint with
    | .summary => return { toMs, start }
    | .query =>
      let limitRaw ← readLimit p
      let bucket ← orError invalidBucket (parseBucket (p.bucket.getD ""))
      return { toMs, start, limit := max 1 (min 100000 limitRaw), bucket }

/-! ## Computing the range -/

def RangeSpan.fromMs (now : Int) : RangeSpan → Int
  | fixed ms => wrap (now - ms)
  | counted qty mul => wrap (now - wrap (qty * mul))

def RangeSpan.computed (now : Int) : RangeSpan → List Int
  | fixed ms => [now - ms]
  | counted qty mul => [qty * mul, now - wrap (qty * mul)]

def RangeStart.fromMs (toMs : Int) : RangeStart → Int
  | given fromMs => fromMs
  | range span => span.fromMs toMs

def RangeStart.computed (toMs : Int) : RangeStart → List Int
  | given _ => []
  | range span => span.computed toMs

/-- The start of the range after `std::swap`. -/
def Request.low (r : Request) : Int := min (r.start.fromMs r.toMs) r.toMs

def Request.high (r : Request) : Int := max (r.start.fromMs r.toMs) r.toMs

def autoBuckets : List Int :=
  [1000, 5000, 10000, 30000, 60000, 300000, 900000, 3600000, 21600000, 86400000]

def chooseAutoBucket (span : Int) : Int :=
  (autoBuckets.find? fun c => (max 1 span).tdiv 300 ≤ c).getD 86400000

/-- `choose_auto_bucket_ms` -/
def chooseAutoBucketMs (fromMs toMs : Int) : Int := chooseAutoBucket (wrap (toMs - fromMs))

/-- An answered range; no bucket is a query for points. -/
structure RangeAnswer where
  fromMs : Int
  toMs : Int
  bucketMs : Option Int
  computed : List Int

/-- The rest of the handler up to the database; a bucket whose product is no positive number is
answered with status 400. -/
def Request.answer (r : Request) : Except String RangeAnswer :=
  let computed := r.start.computed r.toMs
  match r.bucket with
  | .raw => .ok ⟨r.low, r.high, none, computed⟩
  | .auto =>
    .ok ⟨r.low, r.high, some (chooseAutoBucketMs r.low r.high), computed ++ [r.high - r.low]⟩
  | .counted qty mul =>
    if 0 < wrap (qty * mul) then
      .ok ⟨r.low, r.high, some (wrap (qty * mul)), computed ++ [qty * mul]⟩
    else .error invalidBucket

/-! ## Buckets -/

/-- `((ts_ms-from)/bucket)::bigint`. The start of the range stands behind a minus sign in the text of
the query: with a negative one the text has `--`, the rest of it is a comment and the database
refuses it. -/
def databaseIdx (fromMs bucketMs tsMs : Int) : Option Int :=
  if fromMs < 0 then none else some ((tsMs - fromMs).tdiv bucketMs)

def bucketStart (fromMs bucketMs idx : Int) : Int := wrap (fromMs + wrap (idx * bucketMs))

def bucketEnd (fromMs toMs bucketMs idx : Int) : Int :=
  min toMs (wrap (bucketStart fromMs bucketMs idx + bucketMs))

def bucketComputed (fromMs bucketMs idx : Int) : List Int :=
  [idx * bucketMs, fromMs + wrap (idx * bucketMs), bucketStart fromMs bucketMs idx + bucketMs]

/-! ## What a range text says -/

/-- Blanks, a plus sign or none, a positive quantity and a unit. -/
inductive CountedText (unit : Char → Option Int) : List Char → Int → Prop
  | mk {blanks sign ds : List Char} {u : Char} {mul : Int}
      (hblanks : ∀ c ∈ blanks, isSpace c = true) (hsign : sign = [] ∨ sign = ['+'])
      (hds : ∀ c ∈ ds, isDigit c = true) (hpos : 0 < digitsVal ds) (hunit : unit u = some mul) :
      CountedText unit (blanks ++ (sign ++ ds) ++ [u]) (digitsVal ds * mul)

/-- The length of a range in milliseconds; no text is an hour, a month has 30 days and a year
365. -/
inductive RangeText : String → Int → Prop
  | default : RangeText "" 3600000
  | hour : RangeText "hour" 3600000
  | day : RangeText "day" 86400000
  | month : RangeText "month" 2592000000
  | year : RangeText "year" 31536000000
  | counted {text : String} {ms : Int} (h : CountedText rangeUnit text.toList ms) :
      RangeText text ms

def RangeSpan.ms : RangeSpan → Int
  | fixed ms => ms
  | counted qty mul => qty * mul

theorem parseInt64_fits {cs : List Char} {n : Int} (h : parseInt64 cs = some n) : FitsInt64 n := by
  unfold parseInt64 at h
  split at h
  dsimp only at h
  split at h
  · cases h
  · split at h
    · case isTrue hfits =>
      cases h
      exact hfits
    · cases h

theorem parseInt64_pos {cs : List Char} {n : Int} (h : parseInt64 cs = some n) (hpos : 0 < n) :
    ∃ blanks sign ds, cs = blanks ++ (sign ++ ds) ∧ (∀ c ∈ blanks, isSpace c = true) ∧
      (sign = [] ∨ sign = ['+']) ∧ (∀ c ∈ ds, isDigit c = true) ∧ n = digitsVal ds := by
  unfold parseInt64 at h
  obtain ⟨sign, hbody, hsign⟩ := takeSign_spec (cs.dropWhile isSpace)
  generalize takeSign (cs.dropWhile isSpace) = x at h hbody hsign
  obtain ⟨neg, body⟩ := x
  dsimp only at h hbody hsign
  split at h
  · cases h
  · case isFalse hdigits =>
    have hrest : body.dropWhile isDigit = [] := by
      simp only [Bool.or_eq_true, Bool.not_eq_true', not_or] at hdigits
      simpa using hdigits.2
    have hall : body.takeWhile isDigit = body := by
      have happend := List.takeWhile_append_dropWhile (p := isDigit) (l := body)
      rwa [hrest, List.append_nil] at happend
    rw [hall] at h
    split at h
    · case isTrue hfits =>
      have hn : n = signed neg (digitsVal body) := (Option.some.inj h).symm
      have hneg : neg = false := by
        by_contra hneg
        rw [Bool.not_eq_false] at hneg
        rw [hneg] at hn
        have hminus : n = -(digitsVal body : Int) := hn
        omega
      refine ⟨cs.takeWhile isSpace, sign, body, ?_, mem_takeWhile, ?_, hall ▸ mem_takeWhile, ?_⟩
      · rw [← hbody, List.takeWhile_append_dropWhile]
      · rcases hsign with ⟨hs, -⟩ | ⟨-, hs⟩ | ⟨hs, -⟩
        · exact .inl hs
        · rw [hneg] at hs
          cases hs
        · exact .inr hs
      · rw [hn, hneg]
        rfl
    · cases h

theorem readCounted_spec {unit : Char → Option Int} {cs : List Char} {qty mul : Int}
    (h : readCounted unit cs = some (qty, mul)) :
    0 < qty ∧ (∃ u, unit u = some mul) ∧ CountedText unit cs (qty * mul) := by
  unfold readCounted at h
  split at h
  · cases h
  · split at h
    · cases h
    · case h_2 n hparse =>
      split at h
      · cases h
      · case isFalse hpos =>
        obtain ⟨m, hunit, hpair⟩ := Option.map_eq_some_iff.1 h
        obtain ⟨rfl, rfl⟩ := Prod.mk.inj hpair
        obtain ⟨u, hu, hum⟩ := Option.bind_eq_some_iff.1 hunit
        have hpos' : 0 < n := by omega
        obtain ⟨blanks, sign, ds, hcs, hblanks, hsign, hds, hn⟩ := parseInt64_pos hparse hpos'
        have hlast : cs = cs.dropLast ++ [u] := (List.dropLast_append_getLast? u hu).symm
        refine ⟨hpos', ⟨u, hum⟩, ?_⟩
        rw [hlast, hcs, hn]
        exact .mk hblanks hsign hds (by omega) hum

theorem rangeUnit_pos {u : Char} {mul : Int} (h : rangeUnit u = some mul) : 0 < mul := by
  unfold rangeUnit at h
  split_ifs at h <;> cases h <;> decide

theorem durationUnit_pos {u : Char} {mul : Int} (h : durationUnit u = some mul) : 0 < mul := by
  unfold durationUnit at h
  split at h
  · cases h
    decide
  · exact rangeUnit_pos h

theorem parseRange_spec {range : String} {span : RangeSpan} (h : parseRange range = some span) :
    RangeText range span.ms ∧ 0 < span.ms := by
  have hcounted : ∀ (cs : List Char), (readCounted rangeUnit cs).map
      (fun x => RangeSpan.counted x.1 x.2) = some span →
        CountedText rangeUnit cs span.ms ∧ 0 < span.ms := by
    intro cs hread
    obtain ⟨⟨qty, mul⟩, hx, rfl⟩ := Option.map_eq_some_iff.1 hread
    obtain ⟨hpos, ⟨u, hu⟩, htext⟩ := readCounted_spec hx
    exact ⟨htext, Int.mul_pos hpos (rangeUnit_pos hu)⟩
  unfold parseRange at h
  by_cases hempty : range = ""
  · subst hempty
    have hspan : span = .counted 1 3600000 := by
      have heval : readCounted rangeUnit "1h".toList = some (1, 3600000) := by decide
      rw [if_pos rfl] at h
      dsimp only at h
      rw [if_neg (by decide), if_neg (by decide), if_neg (by decide), if_neg (by decide),
        heval] at h
      exact (Option.some.inj h).symm
    rw [hspan]
    exact ⟨.default, by decide⟩
  · rw [if_neg hempty] at h
    dsimp only at h
    split_ifs at h with h1 h2 h3 h4
    · cases h
      exact ⟨h1 ▸ .hour, by decide⟩
    · cases h
      exact ⟨h2 ▸ .day, by decide⟩
    · cases h
      exact ⟨h3 ▸ .month, by decide⟩
    · cases h
      exact ⟨h4 ▸ .year, by decide⟩
    · exact ⟨.counted (hcounted _ h).1, (hcounted _ h).2⟩

/-! ## Requests that are read -/

/-- What the texts of a request promise of its numbers. -/
structure Request.WellRead (r : Request) : Prop where
  toMs : FitsInt64 r.toMs
  given : ∀ n, r.start = .given n → FitsInt64 n
  span : ∀ s, r.start = .range s → 0 < s.ms
  bucket : ∀ qty mul, r.bucket = .counted qty mul → 0 < qty * mul

theorem orError_ok {α : Type} {error : String} {o : Option α} {a : α}
    (h : orError error o = .ok a) : o = some a := by
  cases o with
  | none => cases h
  | some b =>
    cases h
    rfl

theorem readToMs_fits {p : QueryParams} {now n : Int} (hnow : FitsInt64 now)
    (h : readToMs p now = .ok n) : FitsInt64 n := by
  unfold readToMs at h
  split at h
  · exact parseInt64_fits (orError_ok h)
  · cases h
    exact hnow

theorem readStart_spec {p : QueryParams} {start : RangeStart} (h : readStart p = .ok start) :
    (∀ n, start = .given n → FitsInt64 n) ∧
      (∀ s, start = .range s → 0 < s.ms ∧ RangeText (p.range.getD "1h") s.ms) ∧
      (p.fromMs = none → ∃ s, start = .range s) := by
  unfold readStart at h
  split at h
  · case h_1 text hgiven =>
    obtain ⟨n, hn, rfl⟩ := Option.map_eq_some_iff.1 (orError_ok h)
    refine ⟨fun m hm => ?_, fun s hs => (by cases hs), fun hnone => ?_⟩
    · cases hm
      exact parseInt64_fits hn
    · rw [hgiven] at hnone
      cases hnone
  · obtain ⟨span, hspan, rfl⟩ := Option.map_eq_some_iff.1 (orError_ok h)
    refine ⟨fun n hn => (by cases hn), fun s hs => ?_, fun _ => ⟨span, rfl⟩⟩
    cases hs
    exact (parseRange_spec hspan).symm

theorem parseBucket_pos {bucket : String} {qty mul : Int}
    (h : parseBucket bucket = some (.counted qty mul)) : 0 < qty * mul := by
  unfold parseBucket at h
  split_ifs at h with h1 h2
  · cases h
  · cases h
  obtain ⟨⟨q, m⟩, hread, heq⟩ := Option.map_eq_some_iff.1 h
  obtain ⟨rfl, rfl⟩ := BucketSpan.counted.inj heq
  obtain ⟨hpos, ⟨u, hu⟩, -⟩ := readCounted_spec hread
  exact Int.mul_pos hpos (durationUnit_pos hu)

theorem readRequest_spec {endpoint : Endpoint} {p : QueryParams} {now : Int} {r : Request}
    (hnow : FitsInt64 now) (h : readRequest endpoint p now = .ok r) :
    r.WellRead ∧ (∀ s, r.start = .range s → RangeText (p.range.getD "1h") s.ms) ∧
      (p.fromMs = none → ∃ s, r.start = .range s) := by
  unfold readRequest at h
  split at h
  · cases h
  · obtain ⟨toMs, hto, h⟩ := Lib.bind_ok.1 h
    obtain ⟨start, hstart, h⟩ := Lib.bind_ok.1 h
    obtain ⟨hgiven, hspan, hrange⟩ := readStart_spec hstart
    have hbounds : ∀ {limit : Int} {bucket : BucketSpan},
        (∀ qty mul, bucket = .counted qty mul → 0 < qty * mul) →
          Request.WellRead ⟨toMs, start, limit, bucket⟩ := fun hb =>
      ⟨readToMs_fits hnow hto, hgiven, fun s hs => (hspan s hs).1, hb⟩
    split at h
    · cases h
      exact ⟨hbounds fun qty mul hb => (by cases hb), fun s hs => (hspan s hs).2, hrange⟩
    · obtain ⟨limit, -, h⟩ := Lib.bind_ok.1 h
      obtain ⟨bucket, hbucket, h⟩ := Lib.bind_ok.1 h
      cases h
      refine ⟨hbounds fun qty mul hb => ?_, fun s hs => (hspan s hs).2, hrange⟩
      obtain rfl : bucket = .counted qty mul := hb
      exact parseBucket_pos (orError_ok hbucket)

/-! ## When every number fits -/

/-- The start of the range in exact arithmetic. -/
def RangeStart.exact (toMs : Int) : RangeStart → Int
  | given fromMs => fromMs
  | range span => toMs - span.ms

def Request.exactLow (r : Request) : Int := min (r.start.exact r.toMs) r.toMs

def Request.exactHigh (r : Request) : Int := max (r.start.exact r.toMs) r.toMs

def Request.exactBucket (r : Request) : Option Int :=
  match r.bucket with
  | .raw => none
  | .auto => some (chooseAutoBucket (r.exactHigh - r.exactLow))
  | .counted qty mul => some (qty * mul)

/-- The quantities times their units, the start of the range and the end of its last bucket are
64-bit numbers, and so is the length of the range where the bucket is to be chosen. -/
structure Request.Fits (r : Request) : Prop where
  product : ∀ qty mul, r.start = .range (.counted qty mul) → qty * mul ≤ maxInt64
  start : ∀ s, r.start = .range s → minInt64 ≤ r.toMs - s.ms
  auto : r.bucket = .auto → r.exactHigh - r.exactLow ≤ maxInt64
  bucket : ∀ qty mul, r.bucket = .counted qty mul → qty * mul ≤ maxInt64
  last : ∀ b, r.exactBucket = some b → 0 ≤ r.exactLow →
    r.exactLow + (r.exactHigh - r.exactLow).tdiv b * b + b ≤ maxInt64

/-- What is promised of an answered range. -/
structure RangeAnswer.Ok (p : QueryParams) (a : RangeAnswer) : Prop where
  computed : ∀ n ∈ a.computed, FitsInt64 n
  ordered : a.fromMs ≤ a.toMs
  written : p.fromMs = none → RangeText (p.range.getD "1h") (a.toMs - a.fromMs)
  buckets : ∀ b, a.bucketMs = some b → ∀ ts, a.fromMs ≤ ts → ts ≤ a.toMs →
    ∀ idx, databaseIdx a.fromMs b ts = some idx →
      (∀ n ∈ bucketComputed a.fromMs b idx, FitsInt64 n) ∧
      (a.fromMs ≤ bucketStart a.fromMs b idx ∧
          bucketStart a.fromMs b idx < bucketEnd a.fromMs a.toMs b idx ∧
          bucketEnd a.fromMs a.toMs b idx ≤ a.toMs ∨
        bucketStart a.fromMs b idx = a.toMs ∧ bucketEnd a.fromMs a.toMs b idx = a.toMs)

/-! ### The start of the range -/

theorem span_computed {s : RangeSpan} {toMs : Int} (hpos : 0 < s.ms) (hto : FitsInt64 toMs) :
    (∀ n ∈ s.computed toMs, FitsInt64 n) ↔
      (∀ qty mul, s = .counted qty mul → qty * mul ≤ maxInt64) ∧ minInt64 ≤ toMs - s.ms := by
  obtain ⟨hmin, hmax⟩ := hto
  cases s with
  | fixed ms =>
    have hms : 0 < ms := hpos
    simp only [RangeSpan.computed, RangeSpan.ms, List.forall_mem_singleton, FitsInt64]
    constructor
    · intro ⟨hle, _⟩
      exact ⟨fun qty mul h => (by cases h), hle⟩
    · intro ⟨_, hle⟩
      exact ⟨hle, by omega⟩
  | counted qty mul =>
    have hms : 0 < qty * mul := hpos
    show (∀ n ∈ [qty * mul, toMs - wrap (qty * mul)], FitsInt64 n) ↔ _
    rw [List.forall_mem_cons, List.forall_mem_singleton]
    constructor
    · intro ⟨hproduct, hstart⟩
      rw [wrap_eq hproduct] at hstart
      refine ⟨fun q m h => ?_, hstart.1⟩
      obtain ⟨rfl, rfl⟩ := RangeSpan.counted.inj h
      exact hproduct.2
    · intro ⟨hproduct, hstart⟩
      have hfits : FitsInt64 (qty * mul) := by
        refine ⟨?_, hproduct qty mul rfl⟩
        unfold minInt64
        omega
      rw [wrap_eq hfits]
      exact ⟨hfits, hstart, by omega⟩

theorem span_fromMs {s : RangeSpan} {toMs : Int} (h : ∀ n ∈ s.computed toMs, FitsInt64 n) :
    s.fromMs toMs = toMs - s.ms := by
  cases s with
  | fixed ms => exact wrap_eq (h _ List.mem_cons_self)
  | counted qty mul =>
    have hproduct : wrap (qty * mul) = qty * mul := wrap_eq (h _ List.mem_cons_self)
    have hstart := h _ (List.mem_cons_of_mem _ List.mem_cons_self)
    show wrap (toMs - wrap (qty * mul)) = toMs - qty * mul
    rw [wrap_eq hstart, hproduct]

theorem start_computed {r : Request} (h : r.WellRead) :
    (∀ n ∈ r.start.computed r.toMs, FitsInt64 n) ↔
      (∀ qty mul, r.start = .range (.counted qty mul) → qty * mul ≤ maxInt64) ∧
        ∀ s, r.start = .range s → minInt64 ≤ r.toMs - s.ms := by
  cases hstart : r.start with
  | given n =>
    refine iff_of_true (fun n hn => (by cases hn)) ⟨fun q m hr => ?_, fun s hs => ?_⟩
    · cases hr
    · cases hs
  | range span =>
    rw [RangeStart.computed, span_computed (h.span span hstart) h.toMs]
    refine and_congr (forall_congr' fun qty => forall_congr' fun mul => ?_) ?_
    · rw [RangeStart.range.injEq]
    · exact ⟨fun hle s hs => (RangeStart.range.inj hs) ▸ hle, fun hall => hall span rfl⟩

theorem start_fromMs {r : Request} (h : ∀ n ∈ r.start.computed r.toMs, FitsInt64 n) :
    r.start.fromMs r.toMs = r.start.exact r.toMs := by
  cases hstart : r.start with
  | given n => rfl
  | range span =>
    rw [hstart] at h
    exact span_fromMs h

/-! ### The buckets -/

/-- The multiple of `b` below a number, and its multiples up to there. -/
theorem tdiv_bounds {low high ts b : Int} (hb : 0 < b) (hlow : low ≤ ts) (hhigh : ts ≤ high) :
    0 ≤ (ts - low).tdiv b * b ∧ (ts - low).tdiv b * b ≤ ts - low ∧
      (ts - low).tdiv b * b ≤ (high - low).tdiv b * b := by
  rw [Int.tdiv_eq_ediv_of_nonneg (by omega), Int.tdiv_eq_ediv_of_nonneg (by omega)]
  refine ⟨Int.mul_nonneg (Int.ediv_nonneg (by omega) hb.le) hb.le, Int.ediv_mul_le _ hb.ne', ?_⟩
  exact Int.mul_le_mul_of_nonneg_right (Int.ediv_le_ediv hb (by omega)) hb.le

/-- All buckets of a range are computed right if the last one is. -/
theorem buckets_iff {low high b : Int} (hlow : 0 ≤ low) (hle : low ≤ high) (hhigh : FitsInt64 high)
    (hb : 0 < b) :
    (∀ ts, low ≤ ts → ts ≤ high → ∀ idx, databaseIdx low b ts = some idx →
      (∀ n ∈ bucketComputed low b idx, FitsInt64 n) ∧
      (low ≤ bucketStart low b idx ∧ bucketStart low b idx < bucketEnd low high b idx ∧
          bucketEnd low high b idx ≤ high ∨
        bucketStart low b idx = high ∧ bucketEnd low high b idx = high)) ↔
      low + (high - low).tdiv b * b + b ≤ maxInt64 := by
  have hidx : ∀ ts, databaseIdx low b ts = some ((ts - low).tdiv b) := fun ts =>
    if_neg (by omega)
  obtain ⟨hhmin, hhmax⟩ := hhigh
  unfold minInt64 at hhmin
  constructor
  · intro hall
    obtain ⟨hfits, -⟩ := hall high hle (le_refl high) _ (hidx high)
    have hproduct := hfits _ List.mem_cons_self
    have hstart := hfits _ (List.mem_cons_of_mem _ List.mem_cons_self)
    have hend := hfits (bucketStart low b ((high - low).tdiv b) + b) (by simp [bucketComputed])
    unfold bucketStart at hend
    rw [wrap_eq hstart, wrap_eq hproduct] at hend
    exact hend.2
  · intro hlast ts hts hts' idx hi
    obtain rfl : (ts - low).tdiv b = idx := Option.some.inj ((hidx ts).symm.trans hi)
    obtain ⟨hnonneg, hbelow, hmono⟩ := tdiv_bounds hb hts hts'
    have hproduct : FitsInt64 ((ts - low).tdiv b * b) := by
      unfold FitsInt64 minInt64
      omega
    have hfits : FitsInt64 (low + (ts - low).tdiv b * b) := by
      unfold FitsInt64 minInt64
      omega
    have hstart : bucketStart low b ((ts - low).tdiv b) = low + (ts - low).tdiv b * b := by
      unfold bucketStart
      rw [wrap_eq hproduct, wrap_eq hfits]
    have hnext : FitsInt64 (low + (ts - low).tdiv b * b + b) := by
      unfold FitsInt64 minInt64
      omega
    have hend : bucketEnd low high b ((ts - low).tdiv b) =
        min high (low + (ts - low).tdiv b * b + b) := by
      unfold bucketEnd
      rw [hstart, wrap_eq hnext]
    refine ⟨?_, ?_⟩
    · unfold bucketComputed
      rw [hstart, wrap_eq hproduct, List.forall_mem_cons, List.forall_mem_cons,
        List.forall_mem_singleton]
      exact ⟨hproduct, hfits, hnext⟩
    · rw [hstart, hend]
      omega

theorem chooseAutoBucket_pos (span : Int) : 0 < chooseAutoBucket span ∧
    chooseAutoBucket span ≤ maxInt64 := by
  have hall : ∀ c ∈ autoBuckets, 0 < c ∧ c ≤ maxInt64 := by decide
  unfold chooseAutoBucket
  cases hfind : autoBuckets.find? fun c => (max 1 span).tdiv 300 ≤ c with
  | none => decide
  | some c => exact hall c (List.mem_of_find?_eq_some hfind)

/-! ### The answer -/

/-- The bucket of a request and the numbers computed for it. -/
theorem answer_spec {r : Request} {a : RangeAnswer} (h : r.answer = .ok a) :
    a.fromMs = r.low ∧ a.toMs = r.high ∧
      (r.bucket = .raw ∧ a.bucketMs = none ∧ a.computed = r.start.computed r.toMs ∨
        r.bucket = .auto ∧ a.bucketMs = some (chooseAutoBucketMs r.low r.high) ∧
          a.computed = r.start.computed r.toMs ++ [r.high - r.low] ∨
        ∃ qty mul, r.bucket = .counted qty mul ∧ a.bucketMs = some (wrap (qty * mul)) ∧
          0 < wrap (qty * mul) ∧ a.computed = r.start.computed r.toMs ++ [qty * mul]) := by
  unfold Request.answer at h
  dsimp only at h
  split at h
  · case h_1 hb =>
    cases h
    exact ⟨rfl, rfl, .inl ⟨hb, rfl, rfl⟩⟩
  · case h_2 hb =>
    cases h
    exact ⟨rfl, rfl, .inr (.inl ⟨hb, rfl, rfl⟩)⟩
  · case h_3 qty mul hb =>
    split at h
    · case isTrue hpos =>
      cases h
      exact ⟨rfl, rfl, .inr (.inr ⟨qty, mul, hb, rfl, hpos, rfl⟩)⟩
    · cases h

theorem Request.WellRead.ordered {r : Request} (h : r.WellRead)
    (hstart : ∀ s, r.start = .range s → minInt64 ≤ r.toMs - s.ms) :
    r.exactLow ≤ r.exactHigh ∧ FitsInt64 r.exactHigh ∧ FitsInt64 r.exactLow ∧
      ∀ s, r.start = .range s → r.exactHigh - r.exactLow = s.ms := by
  have hexact : FitsInt64 (r.start.exact r.toMs) := by
    cases hr : r.start with
    | given n => exact h.given n hr
    | range s =>
      have hpos := h.span s hr
      have hto := h.toMs.2
      exact ⟨hstart s hr, show r.toMs - s.ms ≤ maxInt64 by omega⟩
  have hto := h.toMs
  unfold Request.exactLow Request.exactHigh
  refine ⟨min_le_max, ?_, ?_, fun s hs => ?_⟩
  · unfold FitsInt64 at hexact hto ⊢
    omega
  · unfold FitsInt64 at hexact hto ⊢
    omega
  · have hpos := h.span s hs
    rw [hs]
    show max (r.toMs - s.ms) r.toMs - min (r.toMs - s.ms) r.toMs = s.ms
    omega

/-- The computed bucket is the exact one if the numbers on the way to it fit. -/
theorem bucketMs_eq {r : Request} {a : RangeAnswer} (ha : r.answer = .ok a)
    (hlow : r.low = r.exactLow) (hhigh : r.high = r.exactHigh)
    (hcomputed : ∀ n ∈ a.computed, FitsInt64 n) : a.bucketMs = r.exactBucket ∧
      ∀ b, a.bucketMs = some b → 0 < b := by
  obtain ⟨-, -, ⟨hb, hms, -⟩ | ⟨hb, hms, hc⟩ | ⟨qty, mul, hb, hms, hpos, hc⟩⟩ := answer_spec ha
  · rw [hms, Request.exactBucket, hb]
    exact ⟨rfl, fun b hb => (by cases hb)⟩
  · have hspan : FitsInt64 (r.high - r.low) := hcomputed _ (by simp [hc])
    rw [hms, Request.exactBucket, hb, chooseAutoBucketMs, wrap_eq hspan, hlow, hhigh]
    refine ⟨rfl, fun b hb => ?_⟩
    cases hb
    exact (chooseAutoBucket_pos _).1
  · have hproduct : FitsInt64 (qty * mul) := hcomputed _ (by simp [hc])
    rw [hms, Request.exactBucket, hb]
    rw [wrap_eq hproduct] at hpos ⊢
    refine ⟨rfl, fun b hb => ?_⟩
    cases hb
    exact hpos

/-- **64-bit ranges.** Every request that is read and not refused afterwards is answered as
promised exactly if its numbers fit. -/
theorem ranges_fit_iff {endpoint : Endpoint} {p : QueryParams} {now : Int} (hnow : FitsInt64 now)
    {r : Request} (hr : readRequest endpoint p now = .ok r) {a : RangeAnswer}
    (ha : r.answer = .ok a) : a.Ok p ↔ r.Fits := by
  obtain ⟨hread, htext, hrange⟩ := readRequest_spec hnow hr
  obtain ⟨hfrom, hto, hbucket⟩ := answer_spec ha
  -- the range is exact once the numbers on the way to it fit
  have hlow : (∀ n ∈ r.start.computed r.toMs, FitsInt64 n) →
      r.low = r.exactLow ∧ r.high = r.exactHigh := by
    intro h
    unfold Request.low Request.high Request.exactLow Request.exactHigh
    rw [start_fromMs h]
    exact ⟨rfl, rfl⟩
  constructor
  · intro hok
    have hcomputed : ∀ n ∈ r.start.computed r.toMs, FitsInt64 n := by
      intro n hn
      apply hok.computed
      rcases hbucket with ⟨-, -, hc⟩ | ⟨-, -, hc⟩ | ⟨_, _, -, -, -, hc⟩ <;> simp [hc, hn]
    obtain ⟨hproduct, hstart⟩ := (start_computed hread).1 hcomputed
    obtain ⟨hl, hh⟩ := hlow hcomputed
    obtain ⟨hle, hhigh, -, -⟩ := hread.ordered hstart
    obtain ⟨hms, hpos⟩ := bucketMs_eq ha hl hh hok.computed
    refine ⟨hproduct, hstart, fun hauto => ?_, fun qty mul hcounted => ?_, fun b hb hzero => ?_⟩
    · rcases hbucket with ⟨hb, -⟩ | ⟨-, -, hc⟩ | ⟨_, _, hb, -⟩
      · rw [hauto] at hb
        cases hb
      · rw [← hl, ← hh]
        exact (hok.computed _ (by simp [hc])).2
      · rw [hauto] at hb
        cases hb
    · rcases hbucket with ⟨hb, -⟩ | ⟨hb, -⟩ | ⟨q, m, hb, -, -, hc⟩
      · rw [hcounted] at hb
        cases hb
      · rw [hcounted] at hb
        cases hb
      · rw [hcounted] at hb
        obtain ⟨rfl, rfl⟩ := BucketSpan.counted.inj hb
        exact (hok.computed _ (by simp [hc])).2
    · have hb' : a.bucketMs = some b := hms.trans hb
      refine (buckets_iff hzero hle hhigh (hpos b hb')).1 ?_
      have hall := hok.buckets b hb'
      rwa [hfrom, hto, hl, hh] at hall
  · intro hf
    have hcomputed := (start_computed hread).2 ⟨hf.product, hf.start⟩
    obtain ⟨hl, hh⟩ := hlow hcomputed
    obtain ⟨hle, hhigh, hlowfits, hlength⟩ := hread.ordered hf.start
    have hall : ∀ n ∈ a.computed, FitsInt64 n := by
      rcases hbucket with ⟨-, -, hc⟩ | ⟨hb, -, hc⟩ | ⟨qty, mul, hb, -, -, hc⟩
      · rwa [hc]
      · rw [hc, List.forall_mem_append, List.forall_mem_singleton, hl, hh]
        have hspan := hf.auto hb
        refine ⟨hcomputed, ?_, hspan⟩
        unfold minInt64
        omega
      · rw [hc, List.forall_mem_append, List.forall_mem_singleton]
        have hpos := hread.bucket qty mul hb
        refine ⟨hcomputed, ?_, hf.bucket qty mul hb⟩
        unfold minInt64
        omega
    obtain ⟨hms, hpos⟩ := bucketMs_eq ha hl hh hall
    refine ⟨hall, ?_, fun hnone => ?_, fun b hb => ?_⟩
    · rwa [hfrom, hto, hl, hh]
    · obtain ⟨s, hs⟩ := hrange hnone
      rw [hfrom, hto, hl, hh, hlength s hs]
      exact htext s hs
    · rw [hfrom, hto, hl, hh]
      by_cases hzero : 0 ≤ r.exactLow
      · exact (buckets_iff hzero hle hhigh (hpos b hb)).2 (hf.last b (hms ▸ hb) hzero)
      · intro ts _ _ idx hi
        rw [databaseIdx, if_pos (by omega)] at hi
        cases hi

/-- An hour by the minute. -/
theorem hour_fits :
    RangeAnswer.Ok { connectionId := "PLC", tagName := "T", bucket := some "1m" }
        ⟨1699996400000, 1700000000000, some 60000, [3600000, 1699996400000, 60000]⟩ ↔
      Request.Fits ⟨1700000000000, .range (.counted 1 3600000), 1000, .counted 1 60000⟩ :=
  have hnow : FitsInt64 1700000000000 := by decide
  have hread : readRequest .query { connectionId := "PLC", tagName := "T", bucket := some "1m" }
      1700000000000 = .ok ⟨1700000000000, .range (.counted 1 3600000), 1000, .counted 1 60000⟩ := rfl
  ranges_fit_iff hnow hread rfl

/-- A range of as many days as a 64-bit number can say. -/
theorem days_wrap : ¬ ∀ (endpoint : Endpoint) (p : QueryParams) (now : Int), FitsInt64 now →
    now ≤ 253402300799999 → ∀ r, readRequest endpoint p now = .ok r →
      ∀ a, r.answer = .ok a → a.Ok p := by
  intro h
  have hok := h .summary { connectionId := "PLC", tagName := "T", range := some "9223372036854775807d" }
    1700000000000 (by decide) (by decide)
    ⟨1700000000000, .range (.counted 9223372036854775807 86400000), 1000, .raw⟩ rfl _ rfl
  have hfits := hok.computed (9223372036854775807 * 86400000) List.mem_cons_self
  revert hfits
  decide

end OpcBridge.Historian
