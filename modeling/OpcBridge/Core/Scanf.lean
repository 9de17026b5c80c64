import OpcBridge.Core.Numerals

/-!
# `sscanf` with integers

The formats have literal characters, blanks and `%d`. A blank in a format matches any blanks, none
included; `%d` skips blanks, reads a sign and takes the longest number; and what the format says
after its last `%d` changes no result, since only the numbers are counted. `Scans` says which texts
give all numbers of a format.
-/

namespace OpcBridge

/-- What `%d` stores for a number that is no `int`. -/
class ScanLib where
  narrow : Int → Int

/-- A 64-bit `strtol`, whose result is cut to 32 bits. -/
@[reducible] def glibcScan : ScanLib where
  narrow n := (max (-9223372036854775808) (min 9223372036854775807 n)).bmod 4294967296

inductive Directive
  | char (c : Char)
  | blank
  | int

/-- How many numbers a format asks for. -/
def ints : List Directive → Nat
  | [] => 0
  | .int :: ds => ints ds + 1
  | _ :: ds => ints ds

def directives : List Char → List Directive
  | '%' :: 'd' :: cs => .int :: directives cs
  | c :: cs => (if isSpace c then .blank else .char c) :: directives cs
  | [] => []

section
variable [ScanLib]

def toInt (n : Int) : Int :=
  if -2147483648 ≤ n ∧ n ≤ 2147483647 then n else ScanLib.narrow n

omit [ScanLib] in
/-- Whether there is a minus sign, and the text after the sign. -/
def takeSign : List Char → Bool × List Char
  | '-' :: cs => (true, cs)
  | '+' :: cs => (false, cs)
  | cs => (false, cs)

omit [ScanLib] in
def signed (neg : Bool) (n : Nat) : Int := if neg then -(n : Int) else n

/-- `%d`: the number, and the text after it. -/
def scanInt (cs : List Char) : Option (Int × List Char) :=
  let (neg, body) := takeSign (cs.dropWhile isSpace)
  let ds := body.takeWhile isDigit
  if ds.isEmpty then none
  else some (toInt (signed neg (digitsVal ds)), body.dropWhile isDigit)

/-- The numbers that are assigned. -/
def scanf : List Directive → List Char → List Int
  | [], _ => []
  | .char c :: ds, cs =>
    match cs with
    | c' :: cs => if c' = c then scanf ds cs else []
    | [] => []
  | .blank :: ds, cs => scanf ds (cs.dropWhile isSpace)
  | .int :: ds, cs =>
    match scanInt cs with
    | some (n, cs) => n :: scanf ds cs
    | none => []

def sscanf (format text : String) : List Int := scanf (directives format.toList) text.toList

/-! ## Which texts are read -/

omit [ScanLib] in
/-- A text without a blank or a digit in front. -/
def Starts (f : Char → Bool) (cs : List Char) : Prop := ∀ c, cs.head? = some c → f c = false

/-- Blanks, a sign or none, and digits. -/
inductive IntText : List Char → Int → Prop
  | mk {blanks sign ds : List Char} {neg : Bool} (hblanks : ∀ c ∈ blanks, isSpace c = true)
      (hsign : sign = [] ∧ neg = false ∨ sign = ['-'] ∧ neg = true ∨ sign = ['+'] ∧ neg = false)
      (hne : ds ≠ []) (hds : ∀ c ∈ ds, isDigit c = true) :
      IntText (blanks ++ (sign ++ ds)) (toInt (signed neg (digitsVal ds)))

/-- The text gives all numbers of the format, and what is left does not matter. -/
inductive Scans : List Directive → List Char → List Int → Prop
  | done {ds : List Directive} {cs : List Char} (h : ints ds = 0) : Scans ds cs []
  | char {c : Char} {ds : List Directive} {cs : List Char} {ns : List Int} (h : Scans ds cs ns) :
      Scans (.char c :: ds) (c :: cs) ns
  | blank {ds : List Directive} {blanks cs : List Char} {ns : List Int}
      (hblanks : ∀ c ∈ blanks, isSpace c = true) (hend : Starts isSpace cs) (h : Scans ds cs ns) :
      Scans (.blank :: ds) (blanks ++ cs) ns
  | int {ds : List Directive} {t cs : List Char} {n : Int} {ns : List Int} (ht : IntText t n)
      (hend : Starts isDigit cs) (h : Scans ds cs ns) : Scans (.int :: ds) (t ++ cs) (n :: ns)

section
omit [ScanLib]

theorem takeWhile_append_starts {f : Char → Bool} {as bs : List Char} (ha : ∀ c ∈ as, f c = true)
    (hb : Starts f bs) : (as ++ bs).takeWhile f = as ∧ (as ++ bs).dropWhile f = bs := by
  have hbs : bs.takeWhile f = [] ∧ bs.dropWhile f = bs := by
    cases bs with
    | nil => exact ⟨rfl, rfl⟩
    | cons b bs => simp [hb b rfl]
  rw [List.takeWhile_append_of_pos ha, List.dropWhile_append_of_pos ha, hbs.1, hbs.2,
    List.append_nil]
  exact ⟨rfl, rfl⟩

theorem starts_dropWhile (f : Char → Bool) (cs : List Char) : Starts f (cs.dropWhile f) := by
  intro c hc
  have hhead := List.head?_dropWhile_not f cs
  rw [hc] at hhead
  simpa using hhead

theorem mem_takeWhile {f : Char → Bool} {cs : List Char} : ∀ c ∈ cs.takeWhile f, f c = true :=
  fun c hc => List.all_eq_true.1 List.all_takeWhile c hc

theorem isDigit_spec {c : Char} (h : isDigit c = true) :
    isSpace c = false ∧ c ≠ '-' ∧ c ≠ '+' := by
  refine ⟨?_, ?_, ?_⟩
  · exact isSpace_numeralChar (.inl h)
  · rintro rfl
    cases h
  · rintro rfl
    cases h

/-- What the sign takes away. -/
theorem takeSign_spec (cs : List Char) : ∃ sign, cs = sign ++ (takeSign cs).2 ∧
    (sign = [] ∧ (takeSign cs).1 = false ∨ sign = ['-'] ∧ (takeSign cs).1 = true ∨
      sign = ['+'] ∧ (takeSign cs).1 = false) := by
  unfold takeSign
  split
  · exact ⟨['-'], rfl, .inr (.inl ⟨rfl, rfl⟩)⟩
  · exact ⟨['+'], rfl, .inr (.inr ⟨rfl, rfl⟩)⟩
  · exact ⟨[], rfl, .inl ⟨rfl, rfl⟩⟩

theorem takeSign_sign {sign ds : List Char} {neg : Bool} (rest : List Char)
    (hsign : sign = [] ∧ neg = false ∨ sign = ['-'] ∧ neg = true ∨ sign = ['+'] ∧ neg = false)
    (hne : ds ≠ []) (hds : ∀ c ∈ ds, isDigit c = true) :
    takeSign (sign ++ (ds ++ rest)) = (neg, ds ++ rest) ∧
      Starts isSpace (sign ++ (ds ++ rest)) := by
  obtain ⟨d, ds, rfl⟩ := List.exists_cons_of_ne_nil hne
  obtain ⟨hspace, hminus, hplus⟩ := isDigit_spec (hds d List.mem_cons_self)
  rcases hsign with ⟨rfl, rfl⟩ | ⟨rfl, rfl⟩ | ⟨rfl, rfl⟩
  · refine ⟨?_, ?_⟩
    · simp [takeSign, hminus, hplus]
    · simpa [Starts] using hspace
  · exact ⟨rfl, by simp [Starts, isSpace]⟩
  · exact ⟨rfl, by simp [Starts, isSpace]⟩

end

theorem scanInt_iff {cs rest : List Char} {n : Int} :
    scanInt cs = some (n, rest) ↔ ∃ t, cs = t ++ rest ∧ IntText t n ∧ Starts isDigit rest := by
  constructor
  · intro h
    unfold scanInt at h
    obtain ⟨sign, hbody, hsign⟩ := takeSign_spec (cs.dropWhile isSpace)
    generalize hsplit : takeSign (cs.dropWhile isSpace) = x at h hbody hsign
    obtain ⟨neg, body⟩ := x
    dsimp only at h hbody hsign
    split at h
    · cases h
    · rename_i hne
      obtain ⟨rfl, rfl⟩ := Prod.mk.inj (Option.some.inj h)
      have hdigits : body.takeWhile isDigit ≠ [] := by simpa using hne
      have hblanks : ∀ c ∈ cs.takeWhile isSpace, isSpace c = true := mem_takeWhile
      refine ⟨_, ?_, .mk hblanks hsign hdigits mem_takeWhile, starts_dropWhile isDigit body⟩
      rw [List.append_assoc, List.append_assoc, List.takeWhile_append_dropWhile, ← hbody,
        List.takeWhile_append_dropWhile]
  · rintro ⟨t, rfl, ht, hrest⟩
    cases ht with
    | @mk blanks sign ds neg hblanks hsign hne hds =>
      obtain ⟨hsigned, hstart⟩ := takeSign_sign rest hsign hne hds
      obtain ⟨htake, hdrop⟩ := takeWhile_append_starts hds hrest
      have hbody : (blanks ++ (sign ++ ds) ++ rest).dropWhile isSpace = sign ++ (ds ++ rest) := by
        rw [List.append_assoc, List.append_assoc]
        exact (takeWhile_append_starts hblanks hstart).2
      unfold scanInt
      rw [hbody, hsigned]
      dsimp only
      rw [htake, hdrop, if_neg (by simpa using hne)]

theorem scanf_nil {ds : List Directive} (h : ints ds = 0) (cs : List Char) : scanf ds cs = [] := by
  induction ds generalizing cs with
  | nil => rfl
  | cons d ds ih =>
    cases d with
    | char c =>
      cases cs with
      | nil => rfl
      | cons c' cs =>
        rw [scanf]
        split
        · exact ih h cs
        · rfl
    | blank => exact ih h _
    | int => cases h

theorem scanf_iff {ds : List Directive} {cs : List Char} {ns : List Int} (h : ns.length = ints ds) :
    scanf ds cs = ns ↔ Scans ds cs ns := by
  induction ds generalizing cs ns with
  | nil =>
    obtain rfl := List.length_eq_zero_iff.1 h
    exact iff_of_true rfl (.done rfl)
  | cons d ds ih =>
    by_cases hzero : ints (d :: ds) = 0
    · rw [hzero] at h
      obtain rfl := List.length_eq_zero_iff.1 h
      exact iff_of_true (scanf_nil hzero cs) (.done hzero)
    have hne : ns ≠ [] := by
      rintro rfl
      exact hzero h.symm
    cases d with
    | char c =>
      constructor
      · intro hscan
        cases cs with
        | nil => exact absurd hscan.symm hne
        | cons c' cs =>
          rw [scanf] at hscan
          split at hscan
          · rename_i hc
            rw [hc]
            exact .char ((ih h).1 hscan)
          · exact absurd hscan.symm hne
      · intro hreads
        cases hreads with
        | done _ => exact absurd rfl hne
        | char hrest =>
          rw [scanf, if_pos rfl]
          exact (ih h).2 hrest
    | blank =>
      constructor
      · intro hscan
        rw [← List.takeWhile_append_dropWhile (p := isSpace) (l := cs)]
        exact .blank mem_takeWhile (starts_dropWhile isSpace cs) ((ih h).1 hscan)
      · intro hreads
        cases hreads with
        | done _ => exact absurd rfl hne
        | blank hblanks hend hrest =>
          rw [scanf, (takeWhile_append_starts hblanks hend).2]
          exact (ih h).2 hrest
    | int =>
      obtain ⟨n, ns, rfl⟩ := List.exists_cons_of_ne_nil hne
      have hlength : ns.length = ints ds := Nat.succ.inj h
      constructor
      · intro hscan
        rw [scanf] at hscan
        split at hscan
        · rename_i m rest hint
          obtain ⟨rfl, hrest⟩ := List.cons.inj hscan
          obtain ⟨t, rfl, ht, hend⟩ := scanInt_iff.1 hint
          exact .int ht hend ((ih hlength).1 hrest)
        · cases hscan
      · intro hreads
        cases hreads with
        | int ht hend hrest =>
          rw [scanf, scanInt_iff.2 ⟨_, rfl, ht, hend⟩]
          exact congrArg _ ((ih hlength).2 hrest)

theorem reads_char {c : Char} {ds : List Directive} {cs : List Char} {n : Int} {ns : List Int} :
    Scans (.char c :: ds) cs (n :: ns) ↔ ∃ rest, cs = c :: rest ∧ Scans ds rest (n :: ns) := by
  constructor
  · intro h
    cases h with
    | char hrest => exact ⟨_, rfl, hrest⟩
  · rintro ⟨rest, rfl, hrest⟩
    exact .char hrest

theorem reads_blank {ds : List Directive} {cs : List Char} {n : Int} {ns : List Int} :
    Scans (.blank :: ds) cs (n :: ns) ↔ Scans ds (cs.dropWhile isSpace) (n :: ns) := by
  constructor
  · intro h
    cases h with
    | blank hblanks hend hrest =>
      rw [(takeWhile_append_starts hblanks hend).2]
      exact hrest
  · intro h
    rw [← List.takeWhile_append_dropWhile (p := isSpace) (l := cs)]
    exact .blank mem_takeWhile (starts_dropWhile isSpace cs) h

theorem reads_int {ds : List Directive} {cs : List Char} {n : Int} {ns : List Int} :
    Scans (.int :: ds) cs (n :: ns) ↔ ∃ rest, scanInt cs = some (n, rest) ∧ Scans ds rest ns := by
  constructor
  · intro h
    cases h with
    | int ht hend hrest => exact ⟨_, scanInt_iff.2 ⟨_, rfl, ht, hend⟩, hrest⟩
  · rintro ⟨rest, hint, hrest⟩
    obtain ⟨t, rfl, ht, hend⟩ := scanInt_iff.1 hint
    exact .int ht hend hrest

end

end OpcBridge
