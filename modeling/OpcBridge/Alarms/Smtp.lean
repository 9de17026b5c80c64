import OpcBridge.Alarms.NotificationConfig
import OpcBridge.Core.Numerals
import OpcBridge.Lib.Lines
import OpcBridge.Lib.Split

/-!
# The files of an e-mail

`send_email_via_smtp` of `opcbridge-alarms/src/main.cpp` writes a message and a configuration for
`curl`. The configuration is read line by line, a value in double quotes with backslash escapes; the
header of the message is read up to the first empty line. The escaper covers the quote and the
backslash but not the line feed, and the header lines are written without one, so the two files say
what they should exactly when no field has a line feed (`email_files_iff`).

Bytes are modelled as `Char`.
-/

namespace OpcBridge.Alarms

open Lib

/-! ## Writing -/

/-- `random_hex`, of the bytes that were drawn. -/
def randomHex (bytes : List UInt8) : List Char :=
  bytes.flatMap fun b => [(b.toNat / 16).digitChar, (b.toNat % 16).digitChar]

def curlEscape (s : List Char) : List Char :=
  s.flatMap fun c => if c = '\\' ∨ c = '"' then ['\\', c] else [c]

/-- The address in the `From` line. -/
def sender (smtp : SmtpConfig) : List Char :=
  if smtp.fromName = "" then smtp.fromAddress.toList
  else smtp.fromName.toList ++ " <".toList ++ smtp.fromAddress.toList ++ ">".toList

def messageText (smtp : SmtpConfig) (to_ subject body : String) : List Char :=
  "From: ".toList ++ sender smtp ++ "\r\n".toList ++
  ("To: ".toList ++ to_.toList ++ "\r\n".toList ++
  ("Subject: ".toList ++ subject.toList ++ "\r\n".toList ++
  ("Content-Type: text/plain; charset=utf-8\r\n".toList ++
  ("\r\n".toList ++
  (body.toList ++ "\r\n".toList)))))

def messagePath (bytes : List UInt8) : List Char :=
  "/tmp/opcbridge-email-".toList ++ randomHex bytes ++ "/message.eml".toList

def urlScheme (smtp : SmtpConfig) : List Char :=
  if smtp.security = "tls" then "smtps://".toList else "smtp://".toList

def configText (smtp : SmtpConfig) (to_ : String) (path : List Char) : List Char :=
  "url = \"".toList ++ urlScheme smtp ++ curlEscape smtp.host.toList ++ ":".toList ++
    (toString smtp.port).toList ++ "\"\n".toList ++
  ("mail-from = \"".toList ++ curlEscape smtp.fromAddress.toList ++ "\"\n".toList ++
  ("mail-rcpt = \"".toList ++ curlEscape to_.toList ++ "\"\n".toList ++
  ("upload-file = \"".toList ++ curlEscape path ++ "\"\n".toList ++
  ("max-time = ".toList ++ (toString smtp.timeoutSec).toList ++ "\n".toList ++
  ("silent\nshow-error\n".toList ++
  ((if smtp.security = "starttls" then "ssl-reqd\n".toList else []) ++
  (if smtp.username = "" then []
    else "user = \"".toList ++ curlEscape (smtp.username ++ ":" ++ smtp.password).toList ++
      "\"\n".toList)))))))

structure EmailFiles where
  message : List Char
  config : List Char

/-- Up to the call of `curl`: whether the program exists, the error of the directory and the drawn
bytes come from outside. -/
def sendEmailViaSmtp (smtp : SmtpConfig) (to_ subject body : String) (curl : Bool)
    (directoryError : Option String) (bytes : List UInt8) : Except String EmailFiles :=
  if !smtp.enabled then .error "SMTP is disabled"
  else if smtp.host = "" then .error "SMTP host is not configured"
  else if smtp.fromAddress = "" then .error "SMTP from address is not configured"
  else if to_ = "" then .error "recipient email is empty"
  else if !curl then .error "curl is required for SMTP email"
  else match directoryError with
    | some message => .error ("failed to create temp dir: " ++ message)
    | none => .ok
      { message := messageText smtp to_ subject body
        config := configText smtp to_ (messagePath bytes) }

/-! ## Reading the configuration -/

/-- Between an option and its value. -/
def separates (c : Char) : Bool := isSpace c || c == '=' || c == ':'

/-- A value in double quotes, without the first one. -/
def unslashquote : List Char → List Char
  | [] => []
  | '"' :: _ => []
  | ['\\'] => []
  | '\\' :: 't' :: cs => '\t' :: unslashquote cs
  | '\\' :: 'n' :: cs => '\n' :: unslashquote cs
  | '\\' :: 'r' :: cs => '\r' :: unslashquote cs
  | '\\' :: 'v' :: cs => '\x0b' :: unslashquote cs
  | '\\' :: c :: cs => c :: unslashquote cs
  | c :: cs => c :: unslashquote cs

/-- An option and its value. -/
abbrev CurlOption := List Char × Option (List Char)

def readValue : List Char → Option (List Char)
  | [] => none
  | '"' :: cs => some (unslashquote cs)
  | cs => some (cs.takeWhile (!isSpace ·))

/-- `none` for an empty line or a comment. -/
def readLine (l : List Char) : Option CurlOption :=
  match l.dropWhile isSpace with
  | [] => none
  | c :: cs =>
    if c ∈ ['#', '/', '*'] then none
    else some ((c :: cs).takeWhile (!separates ·),
      readValue (((c :: cs).dropWhile (!separates ·)).dropWhile separates))

def readConfig (text : List Char) : List CurlOption := (lines text).filterMap readLine

/-- What the configuration is to say. -/
def intendedOptions (smtp : SmtpConfig) (to_ : String) (path : List Char) : List CurlOption :=
  ("url".toList, some (urlScheme smtp ++ smtp.host.toList ++ ":".toList ++
    (toString smtp.port).toList)) ::
  ("mail-from".toList, some smtp.fromAddress.toList) ::
  ("mail-rcpt".toList, some to_.toList) ::
  ("upload-file".toList, some path) ::
  ("max-time".toList, some (toString smtp.timeoutSec).toList) ::
  ("silent".toList, none) ::
  ("show-error".toList, none) ::
  ((if smtp.security = "starttls" then [("ssl-reqd".toList, none)] else []) ++
  (if smtp.username = "" then []
    else [("user".toList, some (smtp.username ++ ":" ++ smtp.password).toList)]))

/-! ## Reading the header -/

/-- A line without the carriage return at its end. -/
def dropReturn (l : List Char) : List Char :=
  if l.getLast? = some '\r' then l.dropLast else l

/-- A line that starts with a blank goes on with the line before. -/
def unfoldLines : List (List Char) → List (List Char)
  | [] => []
  | l :: ls =>
    match unfoldLines ls with
    | [] => [l]
    | m :: ms => if m.head?.any isSpace then (l ++ m) :: ms else l :: m :: ms

/-- The lines before the first empty one. -/
def headerLines (text : List Char) : List (List Char) :=
  ((lines text).map dropReturn).takeWhile (· ≠ [])

/-- The header's name and what follows the colon; `none` for a line without a colon. -/
def readHeader (text : List Char) : List (Option (List Char × List Char)) :=
  (unfoldLines (headerLines text)).map (splitFirst ':')

/-- What the header is to say. -/
def intendedHeader (smtp : SmtpConfig) (to_ subject : String) :
    List (Option (List Char × List Char)) :=
  [some ("From".toList, ' ' :: sender smtp), some ("To".toList, ' ' :: to_.toList),
    some ("Subject".toList, ' ' :: subject.toList),
    some ("Content-Type".toList, " text/plain; charset=utf-8".toList)]

/-! ## One value -/

theorem curlEscape_append (a b : List Char) : curlEscape (a ++ b) = curlEscape a ++ curlEscape b :=
  List.flatMap_append

/-- The escaper adds no line feed and leaves none out. -/
theorem mem_curlEscape {v : List Char} : '\n' ∈ curlEscape v ↔ '\n' ∈ v := by
  induction v with
  | nil => exact Iff.rfl
  | cons c v ih =>
    rw [curlEscape, List.flatMap_cons, List.mem_append, List.mem_cons, ← curlEscape, ih]
    refine or_congr_left ?_
    split
    · rename_i hspecial
      rcases hspecial with rfl | rfl <;> decide
    · exact List.mem_singleton

/-- Escaped text reads back, up to the quote or the end of the line. -/
theorem unslashquote_curlEscape (v : List Char) {rest : List Char}
    (hrest : unslashquote rest = []) : unslashquote (curlEscape v ++ rest) = v := by
  induction v with
  | nil => exact hrest
  | cons c v ih =>
    rw [curlEscape, List.flatMap_cons, ← curlEscape]
    by_cases hslash : c = '\\'
    · subst hslash
      simp [unslashquote, ih]
    by_cases hquote : c = '"'
    · subst hquote
      simp [unslashquote, ih]
    simp [hslash, hquote, unslashquote, ih]

theorem curlEscape_plain {v : List Char} (h : ∀ c ∈ v, c ≠ '\\' ∧ c ≠ '"') : curlEscape v = v := by
  induction v with
  | nil => rfl
  | cons c v ih =>
    rw [List.forall_mem_cons] at h
    rw [curlEscape, List.flatMap_cons, ← curlEscape, ih h.2, if_neg (by simp [h.1])]
    rfl

/-! ## One line of the configuration -/

/-- An option's name, as it is written. -/
def OptionName (name : List Char) : Prop :=
  name ≠ [] ∧ ∀ c ∈ name, separates c = false ∧ c ∉ ['#', '/', '*']

instance (name : List Char) : Decidable (OptionName name) := inferInstanceAs (Decidable (_ ∧ _))

theorem readConfig_line {l : List Char} (h : '\n' ∉ l) (rest : List Char) :
    readConfig (l ++ '\n' :: rest) = (readLine l).toList ++ readConfig rest := by
  unfold readConfig
  rw [lines_append h, List.filterMap_cons]
  cases readLine l <;> rfl

/-- The name ends at the first separator, and the value starts after the last one. -/
theorem readLine_value {name : List Char} (hname : OptionName name) {gap value : List Char}
    (hgap : ∀ c ∈ gap, separates c = true) (hnone : gap = [] → value = [])
    (hvalue : ∀ c ∈ value.head?, separates c = false) :
    readLine (name ++ (gap ++ value)) = some (name, readValue value) := by
  obtain ⟨hne, hplain⟩ := hname
  have hsep : ∀ c ∈ name, (!separates c) = true := fun c hc => by simp [(hplain c hc).1]
  have hrest : ((gap ++ value).takeWhile (!separates ·) = []) ∧
      (gap ++ value).dropWhile (!separates ·) = gap ++ value := by
    cases gap with
    | nil =>
      rw [hnone rfl]
      exact ⟨rfl, rfl⟩
    | cons d gap => simp [hgap d]
  have hfound : (gap ++ value).dropWhile separates = value := by
    rw [List.dropWhile_append_of_pos hgap]
    cases value with
    | nil => rfl
    | cons d value => exact List.dropWhile_cons_of_neg (by simp [hvalue d rfl])
  have htake : (name ++ (gap ++ value)).takeWhile (!separates ·) = name := by
    rw [List.takeWhile_append_of_pos hsep, hrest.1, List.append_nil]
  have hdrop : ((name ++ (gap ++ value)).dropWhile (!separates ·)).dropWhile separates = value := by
    rw [List.dropWhile_append_of_pos hsep, hrest.2, hfound]
  obtain ⟨c, cs, rfl⟩ := List.exists_cons_of_ne_nil hne
  obtain ⟨hc, hcomment⟩ := hplain c List.mem_cons_self
  have hspace : isSpace c = false := by
    simp only [separates, Bool.or_eq_false_iff] at hc
    exact hc.1.1
  have hstart : (c :: cs ++ (gap ++ value)).dropWhile isSpace = c :: (cs ++ (gap ++ value)) :=
    List.dropWhile_cons_of_neg (by simp [hspace])
  rw [List.cons_append] at htake hdrop
  rw [readLine, hstart]
  simp only [if_neg hcomment, htake, hdrop]

/-- The line of a value in quotes. -/
def quotedLine (name : String) (v : List Char) : List Char :=
  name.toList ++ " = \"".toList ++ curlEscape v ++ "\"\n".toList

/-- A value in quotes is read back exactly when it stays on its line. -/
theorem readConfig_quoted {name : String} (hname : OptionName name.toList) (v rest : List Char)
    (os : List CurlOption) :
    readConfig (quotedLine name v ++ rest) = (name.toList, some v) :: os ↔
      '\n' ∉ v ∧ readConfig rest = os := by
  have hline : ∀ w : List Char, readLine (name.toList ++ (" = ".toList ++ ('"' :: w))) =
      some (name.toList, some (unslashquote w)) := fun w =>
    readLine_value hname (by decide) (fun h => by cases h) (fun c hc => by
      obtain rfl := Option.some.inj hc
      decide)
  have hname' : '\n' ∉ name.toList := fun h => absurd (hname.2 _ h).1 (by decide)
  have hfeed : ∀ w : List Char, '\n' ∉ w → '\n' ∉ name.toList ++ (" = ".toList ++ ('"' :: w)) := by
    intro w hw h
    rcases List.mem_append.1 h with hleft | hright
    · exact hname' hleft
    rcases List.mem_append.1 hright with hgap | hquoted
    · exact absurd hgap (by decide)
    rcases List.mem_cons.1 hquoted with hquote | hvalue
    · exact absurd hquote (by decide)
    · exact hw hvalue
  by_cases hv : '\n' ∈ v
  · refine iff_of_false ?_ fun h => h.1 hv
    -- the line ends inside the value
    obtain ⟨a, b, rfl, ha⟩ := List.eq_append_cons_of_mem hv
    have hescape : curlEscape (a ++ '\n' :: b) = curlEscape a ++ '\n' :: curlEscape b := by
      rw [curlEscape_append]
      rfl
    have htext : quotedLine name (a ++ '\n' :: b) ++ rest =
        name.toList ++ (" = ".toList ++ ('"' :: curlEscape a)) ++
          '\n' :: (curlEscape b ++ "\"\n".toList ++ rest) := by
      rw [quotedLine, hescape]
      simp
    have hcut : unslashquote (curlEscape a) = a := by
      have hread : unslashquote (curlEscape a ++ []) = a := unslashquote_curlEscape a rfl
      rw [List.append_nil] at hread
      exact hread
    rw [htext, readConfig_line (hfeed _ fun h => ha (mem_curlEscape.1 h)), hline, hcut]
    intro heq
    have hvalue := congrArg (fun o : CurlOption => o.2) (List.cons.inj heq).1
    have hlength := congrArg List.length (Option.some.inj hvalue)
    rw [List.length_append, List.length_cons] at hlength
    omega
  · have htext : quotedLine name v ++ rest =
        name.toList ++ (" = ".toList ++ ('"' :: (curlEscape v ++ ['"']))) ++ '\n' :: rest := by
      rw [quotedLine]
      simp
    have hclosed : '\n' ∉ curlEscape v ++ ['"'] := by
      intro h
      rcases List.mem_append.1 h with hvalue | hquote
      · exact hv (mem_curlEscape.1 hvalue)
      · exact absurd hquote (by decide)
    rw [htext, readConfig_line (hfeed _ hclosed), hline, unslashquote_curlEscape v rfl]
    constructor
    · exact fun heq => ⟨hv, (List.cons.inj heq).2⟩
    · rintro ⟨-, rfl⟩
      rfl

/-- An option without a value, or with one that has no blank and no quote. -/
theorem readConfig_plain {name : String} (hname : OptionName name.toList) (rest : List Char)
    (os : List CurlOption) :
    readConfig (name.toList ++ '\n' :: rest) = (name.toList, none) :: os ↔
      readConfig rest = os := by
  have hfeed : '\n' ∉ name.toList := fun h => absurd (hname.2 _ h).1 (by decide)
  have hline : readLine name.toList = some (name.toList, none) := by
    have hread : readLine (name.toList ++ ([] ++ [])) = some (name.toList, readValue []) :=
      readLine_value hname (fun c hc => by cases hc) (fun _ => rfl) (fun c hc => by cases hc)
    rw [List.append_nil, List.append_nil] at hread
    exact hread
  rw [readConfig_line hfeed, hline]
  exact ⟨fun heq => (List.cons.inj heq).2, fun heq => by rw [heq]; rfl⟩

theorem readValue_toString (n : Int) : readValue (toString n).toList = some (toString n).toList := by
  have hspace := isSpace_toString n
  have hnumeral := numeralChar_toString n
  have hne : (toString n).toList ≠ [] := by
    rw [toList_toString]
    exact List.append_ne_nil_of_right_ne_nil _ Nat.toDigits_ne_nil
  have hall : (toString n).toList.takeWhile (!isSpace ·) = (toString n).toList :=
    List.takeWhile_eq_self_iff.2 fun c hc => by simp [hspace c hc]
  unfold readValue
  split
  · rename_i hnil
    exact absurd hnil hne
  · rename_i cs hquote
    have hmem : '"' ∈ (toString n).toList := by
      rw [hquote]
      exact List.mem_cons_self
    exact absurd (hnumeral _ hmem) (by decide)
  · rw [hall]

theorem readConfig_int {name : String} (hname : OptionName name.toList) (n : Int)
    (rest : List Char) (os : List CurlOption) :
    readConfig (name.toList ++ (" = ".toList ++ (toString n).toList) ++ '\n' :: rest) =
        (name.toList, some (toString n).toList) :: os ↔
      readConfig rest = os := by
  have hspace := isSpace_toString n
  have hfeed : '\n' ∉ name.toList ++ (" = ".toList ++ (toString n).toList) := by
    intro h
    rcases List.mem_append.1 h with hleft | hright
    · exact absurd (hname.2 _ hleft).1 (by decide)
    rcases List.mem_append.1 hright with hgap | hvalue
    · exact absurd hgap (by decide)
    · exact absurd (hspace _ hvalue) (by decide)
  have hline : readLine (name.toList ++ (" = ".toList ++ (toString n).toList)) =
      some (name.toList, some (toString n).toList) := by
    rw [← readValue_toString n]
    refine readLine_value hname (by decide) (fun h => by cases h) fun c hc => ?_
    have hnumeral := numeralChar_toString n c (List.mem_of_head? hc)
    rcases hnumeral with hdigit | hother
    · have hspace := isSpace_numeralChar (.inl hdigit)
      have hsep : c ≠ '=' ∧ c ≠ ':' := by
        constructor
        · rintro rfl
          cases hdigit
        · rintro rfl
          cases hdigit
      simp [separates, hspace, hsep]
    · exact (by decide : ∀ c ∈ ['-', '+', '.', 'e'], separates c = false) c hother
  rw [readConfig_line hfeed, hline]
  exact ⟨fun heq => (List.cons.inj heq).2, fun heq => by rw [heq]; rfl⟩

/-! ## The configuration -/

theorem configText_url (smtp : SmtpConfig) :
    "url = \"".toList ++ urlScheme smtp ++ curlEscape smtp.host.toList ++ ":".toList ++
        (toString smtp.port).toList ++ "\"\n".toList =
      quotedLine "url" (urlScheme smtp ++ smtp.host.toList ++ ":".toList ++
        (toString smtp.port).toList) := by
  have hscheme : curlEscape (urlScheme smtp) = urlScheme smtp := by
    unfold urlScheme
    split
    · exact curlEscape_plain (by decide)
    · exact curlEscape_plain (by decide)
  have hport : curlEscape (toString smtp.port).toList = (toString smtp.port).toList :=
    curlEscape_plain fun c hc => by
      have hnumeral := numeralChar_toString _ c hc
      constructor
      · rintro rfl
        exact absurd hnumeral (by decide)
      · rintro rfl
        exact absurd hnumeral (by decide)
  have hcolon : curlEscape ":".toList = ":".toList := curlEscape_plain (by decide)
  rw [quotedLine, curlEscape_append, curlEscape_append, curlEscape_append, hscheme, hport, hcolon]
  simp only [← List.append_assoc]
  rfl

theorem mem_url (smtp : SmtpConfig) :
    '\n' ∈ urlScheme smtp ++ smtp.host.toList ++ ":".toList ++ (toString smtp.port).toList ↔
      '\n' ∈ smtp.host.toList := by
  have hscheme : '\n' ∉ urlScheme smtp := by
    unfold urlScheme
    split <;> decide
  have hport : '\n' ∉ (toString smtp.port).toList := fun h =>
    absurd (numeralChar_toString _ _ h) (by decide)
  have hcolon : '\n' ∉ ":".toList := by decide
  simp only [List.mem_append, hscheme, hport, hcolon, false_or, or_false]

/-- The line of the user, if there is one. -/
def userLine (smtp : SmtpConfig) : List Char :=
  if smtp.username = "" then []
  else quotedLine "user" (smtp.username ++ ":" ++ smtp.password).toList

theorem readConfig_user (smtp : SmtpConfig) :
    readConfig (userLine smtp) =
        (if smtp.username = "" then []
          else [("user".toList, some (smtp.username ++ ":" ++ smtp.password).toList)]) ↔
      (smtp.username ≠ "" → '\n' ∉ smtp.username.toList ∧ '\n' ∉ smtp.password.toList) := by
  unfold userLine
  by_cases huser : smtp.username = ""
  · rw [if_pos huser, if_pos huser]
    exact iff_of_true rfl fun h => absurd huser h
  · have hname : OptionName "user".toList := by decide
    have hquoted := readConfig_quoted hname (smtp.username ++ ":" ++ smtp.password).toList [] []
    rw [List.append_nil] at hquoted
    rw [if_neg huser, if_neg huser, hquoted]
    have hcolon : '\n' ∉ ":".toList := by decide
    simp only [String.toList_append, List.mem_append, hcolon, or_false, not_or]
    exact ⟨fun h _ => h.1, fun h => ⟨h huser, rfl⟩⟩

theorem configText_lines (smtp : SmtpConfig) (to_ : String) (path : List Char) :
    configText smtp to_ path =
      quotedLine "url" (urlScheme smtp ++ smtp.host.toList ++ ":".toList ++
        (toString smtp.port).toList) ++
      (quotedLine "mail-from" smtp.fromAddress.toList ++
      (quotedLine "mail-rcpt" to_.toList ++
      (quotedLine "upload-file" path ++
      ("max-time".toList ++ (" = ".toList ++ (toString smtp.timeoutSec).toList) ++ '\n' ::
      ("silent".toList ++ '\n' ::
      ("show-error".toList ++ '\n' ::
      ((if smtp.security = "starttls" then "ssl-reqd".toList ++ ['\n'] else []) ++
        userLine smtp))))))) := by
  have hlines : ∀ a b c d m u : List Char,
      a ++ ("mail-from = \"".toList ++ b ++ "\"\n".toList ++
        ("mail-rcpt = \"".toList ++ c ++ "\"\n".toList ++
        ("upload-file = \"".toList ++ d ++ "\"\n".toList ++
        ("max-time = ".toList ++ m ++ "\n".toList ++ ("silent\nshow-error\n".toList ++ u))))) =
      a ++ ("mail-from".toList ++ " = \"".toList ++ b ++ "\"\n".toList ++
        ("mail-rcpt".toList ++ " = \"".toList ++ c ++ "\"\n".toList ++
        ("upload-file".toList ++ " = \"".toList ++ d ++ "\"\n".toList ++
        ("max-time".toList ++ (" = ".toList ++ m) ++ '\n' :: ("silent".toList ++ '\n' ::
        ("show-error".toList ++ '\n' :: u)))))) := by
    intro a b c d m u
    simp
  unfold configText
  rw [configText_url, hlines]
  rfl

/-- The configuration says what it should if and only if no value has a line feed. -/
theorem readConfig_iff (smtp : SmtpConfig) (to_ : String) {path : List Char}
    (hpath : '\n' ∉ path) :
    readConfig (configText smtp to_ path) = intendedOptions smtp to_ path ↔
      '\n' ∉ smtp.host.toList ∧ '\n' ∉ smtp.fromAddress.toList ∧ '\n' ∉ to_.toList ∧
        (smtp.username ≠ "" → '\n' ∉ smtp.username.toList ∧ '\n' ∉ smtp.password.toList) := by
  have htail : readConfig ((if smtp.security = "starttls" then "ssl-reqd".toList ++ ['\n']
        else []) ++ userLine smtp) =
      (if smtp.security = "starttls" then [("ssl-reqd".toList, none)] else []) ++
        (if smtp.username = "" then []
          else [("user".toList, some (smtp.username ++ ":" ++ smtp.password).toList)]) ↔
      (smtp.username ≠ "" → '\n' ∉ smtp.username.toList ∧ '\n' ∉ smtp.password.toList) := by
    rw [← readConfig_user]
    by_cases hsecurity : smtp.security = "starttls"
    · rw [if_pos hsecurity, if_pos hsecurity, List.append_assoc]
      exact readConfig_plain (by decide) _ _
    · rw [if_neg hsecurity, if_neg hsecurity, List.nil_append, List.nil_append]
  rw [configText_lines, intendedOptions, readConfig_quoted (by decide),
    readConfig_quoted (by decide), readConfig_quoted (by decide), readConfig_quoted (by decide),
    readConfig_int (by decide), readConfig_plain (by decide), readConfig_plain (by decide), htail,
    mem_url]
  exact ⟨fun ⟨hhost, hfrom, hto, _, huser⟩ => ⟨hhost, hfrom, hto, huser⟩,
    fun ⟨hhost, hfrom, hto, huser⟩ => ⟨hhost, hfrom, hto, hpath, huser⟩⟩

/-! ## The header -/

theorem headerLines_append {l : List Char} (hfeed : '\n' ∉ l) (hne : l ≠ []) (rest : List Char) :
    headerLines (l ++ "\r\n".toList ++ rest) = l :: headerLines rest := by
  have htext : l ++ "\r\n".toList ++ rest = (l ++ ['\r']) ++ '\n' :: rest := by simp
  have hline : '\n' ∉ l ++ ['\r'] := by
    intro h
    rcases List.mem_append.1 h with hleft | hreturn
    · exact hfeed hleft
    · exact absurd hreturn (by decide)
  have hdrop : dropReturn (l ++ ['\r']) = l := by
    rw [dropReturn, if_pos (by simp), List.dropLast_concat]
  rw [htext, headerLines, lines_append hline, List.map_cons, hdrop,
    List.takeWhile_cons_of_pos (by simpa using hne)]
  rfl

theorem headerLines_end (rest : List Char) : headerLines ("\r\n".toList ++ rest) = [] := by
  have hline : lines ("\r\n".toList ++ rest) = ['\r'] :: lines rest :=
    lines_append (a := ['\r']) (by decide) rest
  have hdrop : dropReturn ['\r'] = [] := rfl
  rw [headerLines, hline, List.map_cons, hdrop]
  rfl

theorem not_mem_headerLines {text l : List Char} (h : l ∈ headerLines text) : '\n' ∉ l := by
  obtain ⟨m, hm, rfl⟩ := List.mem_map.1 ((List.takeWhile_sublist _).subset h)
  have hfree := not_mem_lines hm
  unfold dropReturn
  split
  · exact fun hmem => hfree ((List.dropLast_sublist m).subset hmem)
  · exact hfree

/-- Unfolding adds no line feed. -/
theorem not_mem_unfoldLines {ls : List (List Char)} (h : ∀ l ∈ ls, '\n' ∉ l) :
    ∀ l ∈ unfoldLines ls, '\n' ∉ l := by
  induction ls with
  | nil => exact fun _ hl => by cases hl
  | cons l ls ih =>
    rw [List.forall_mem_cons] at h
    have hrest := ih h.2
    unfold unfoldLines
    split
    · exact fun m hm => List.mem_singleton.1 hm ▸ h.1
    · rename_i m ms heq
      rw [heq, List.forall_mem_cons] at hrest
      split
      · refine List.forall_mem_cons.2 ⟨fun hmem => ?_, hrest.2⟩
        exact (List.mem_append.1 hmem).elim h.1 hrest.1
      · exact List.forall_mem_cons.2 ⟨h.1, List.forall_mem_cons.2 hrest⟩

/-- A header that was read has no line feed. -/
theorem not_mem_readHeader {text name body : List Char}
    (h : some (name, body) ∈ readHeader text) : '\n' ∉ body := by
  obtain ⟨l, hl, hsplit⟩ := List.mem_map.1 h
  have hfree := not_mem_unfoldLines (fun _ => not_mem_headerLines) l hl
  obtain ⟨-, rfl⟩ := splitFirst_eq_some.1 hsplit
  exact fun hmem => hfree (List.mem_append_right _ (List.mem_cons_of_mem _ hmem))

theorem unfoldLines_eq_self {ls : List (List Char)}
    (h : ∀ l ∈ ls, l.head?.any isSpace = false) : unfoldLines ls = ls := by
  induction ls with
  | nil => rfl
  | cons l ls ih =>
    rw [List.forall_mem_cons] at h
    rw [unfoldLines, ih h.2]
    cases ls with
    | nil => rfl
    | cons m ms => exact if_neg (by simp [h.2 m])

/-- The header says what it should if and only if no line of it is cut. -/
theorem readHeader_iff (smtp : SmtpConfig) (to_ subject body : String) :
    readHeader (messageText smtp to_ subject body) = intendedHeader smtp to_ subject ↔
      '\n' ∉ sender smtp ∧ '\n' ∉ to_.toList ∧ '\n' ∉ subject.toList := by
  constructor
  · intro h
    have hfree : ∀ name value : List Char,
        some (name, ' ' :: value) ∈ intendedHeader smtp to_ subject → '\n' ∉ value := fun name value hmem hfeed =>
      not_mem_readHeader (h ▸ hmem) (List.mem_cons_of_mem _ hfeed)
    refine ⟨hfree _ _ List.mem_cons_self, hfree _ _ (List.mem_cons_of_mem _ List.mem_cons_self),
      hfree _ _ (List.mem_cons_of_mem _ (List.mem_cons_of_mem _ List.mem_cons_self))⟩
  · rintro ⟨hsender, hto, hsubject⟩
    have hline : ∀ {name value : List Char}, '\n' ∉ name → '\n' ∉ value → '\n' ∉ name ++ value :=
      fun hname hvalue hmem => (List.mem_append.1 hmem).elim hname hvalue
    unfold readHeader messageText
    rw [headerLines_append (hline (by decide) hsender) (by simp),
      headerLines_append (hline (by decide) hto) (by simp),
      headerLines_append (hline (by decide) hsubject) (by simp)]
    have htype : "Content-Type: text/plain; charset=utf-8\r\n".toList =
        "Content-Type: text/plain; charset=utf-8".toList ++ "\r\n".toList := rfl
    rw [htype, headerLines_append (by decide) (by decide), headerLines_end, unfoldLines_eq_self]
    · have hfrom := splitFirst_append (by decide : ':' ∉ "From".toList) (b := ' ' :: sender smtp)
      have hto := splitFirst_append (by decide : ':' ∉ "To".toList) (b := ' ' :: to_.toList)
      have hsubject := splitFirst_append (by decide : ':' ∉ "Subject".toList)
        (b := ' ' :: subject.toList)
      show [splitFirst ':' ("From".toList ++ ':' :: ' ' :: sender smtp),
        splitFirst ':' ("To".toList ++ ':' :: ' ' :: to_.toList),
        splitFirst ':' ("Subject".toList ++ ':' :: ' ' :: subject.toList), _] = _
      rw [hfrom, hto, hsubject]
      rfl
    · intro l hl
      simp only [List.mem_cons, List.not_mem_nil, or_false] at hl
      rcases hl with rfl | rfl | rfl | rfl <;> rfl

/-! ## Both files -/

theorem mem_sender (smtp : SmtpConfig) :
    '\n' ∈ sender smtp ↔ '\n' ∈ smtp.fromName.toList ∨ '\n' ∈ smtp.fromAddress.toList := by
  unfold sender
  split
  · rename_i hname
    rw [hname]
    exact (or_iff_right List.not_mem_nil).symm
  · have hopen : '\n' ∉ " <".toList := by decide
    have hclose : '\n' ∉ ">".toList := by decide
    simp only [List.mem_append, hopen, hclose, or_false]

/-- The drawn bytes are written as hexadecimal digits. -/
theorem mem_messagePath (bytes : List UInt8) : '\n' ∉ messagePath bytes := by
  have hdigit : ∀ n < 16, Nat.digitChar n ≠ '\n' := by decide
  have hhex : '\n' ∉ randomHex bytes := by
    intro h
    obtain ⟨b, -, hb⟩ := List.mem_flatMap.1 h
    have hlt := b.toNat_lt
    rcases List.mem_cons.1 hb with hhigh | hlow
    · exact hdigit _ (by omega) hhigh.symm
    · exact hdigit _ (by omega) (List.mem_singleton.1 hlow).symm
  have hbefore : '\n' ∉ "/tmp/opcbridge-email-".toList := by decide
  have hafter : '\n' ∉ "/message.eml".toList := by decide
  unfold messagePath
  simp only [List.mem_append, hbefore, hhex, hafter, or_self, not_false_eq_true]

/-- No field that reaches the files has a line feed. -/
def NoLineFeed (smtp : SmtpConfig) (to_ subject : String) : Prop :=
  (∀ s ∈ [smtp.host, smtp.fromAddress, smtp.fromName, to_, subject], '\n' ∉ s.toList) ∧
    (smtp.username ≠ "" → '\n' ∉ smtp.username.toList ∧ '\n' ∉ smtp.password.toList)

theorem email_files_iff {smtp : SmtpConfig} {to_ subject body : String} {curl : Bool}
    {directoryError : Option String} {bytes : List UInt8} {files : EmailFiles}
    (h : sendEmailViaSmtp smtp to_ subject body curl directoryError bytes = .ok files) :
    (readConfig files.config = intendedOptions smtp to_ (messagePath bytes) ∧
        readHeader files.message = intendedHeader smtp to_ subject) ↔
      NoLineFeed smtp to_ subject := by
  obtain rfl : files = ⟨messageText smtp to_ subject body, configText smtp to_ (messagePath bytes)⟩ := by
    unfold sendEmailViaSmtp at h
    split_ifs at h
    split at h
    · cases h
    · exact (Except.ok.inj h).symm
  rw [readConfig_iff smtp to_ (mem_messagePath bytes), readHeader_iff, mem_sender, NoLineFeed]
  simp only [List.forall_mem_cons, List.not_mem_nil, not_or, IsEmpty.forall_iff, implies_true,
    and_true]
  constructor
  · rintro ⟨⟨hhost, hfrom, hto, huser⟩, ⟨hname, -⟩, -, hsubject⟩
    exact ⟨⟨hhost, hfrom, hname, hto, hsubject⟩, huser⟩
  · rintro ⟨⟨hhost, hfrom, hname, hto, hsubject⟩, huser⟩
    exact ⟨⟨hhost, hfrom, hto, huser⟩, ⟨hname, hfrom⟩, hto, hsubject⟩

/-- A mail server with a user. -/
def exampleSmtp : SmtpConfig :=
  { enabled := true, host := "mail", username := "u\"x\"", password := "p\\w",
    fromAddress := "plant@example.org", fromName := "Plant" }

theorem email_files_example :
    (readConfig (configText exampleSmtp "ops@example.org" (messagePath [7])) =
          intendedOptions exampleSmtp "ops@example.org" (messagePath [7]) ∧
        readHeader (messageText exampleSmtp "ops@example.org" "high" "body") =
          intendedHeader exampleSmtp "ops@example.org" "high") ↔
      NoLineFeed exampleSmtp "ops@example.org" "high" := by
  have hfiles : sendEmailViaSmtp exampleSmtp "ops@example.org" "high" "body" true none [7] =
      .ok ⟨messageText exampleSmtp "ops@example.org" "high" "body",
        configText exampleSmtp "ops@example.org" (messagePath [7])⟩ := rfl
  exact email_files_iff hfiles

/-- A line feed in the recipient adds an option, and one in the subject a header. -/
theorem email_injection :
    let recipient := "a\nproxy = evil:80\n#"
    let subject := "high\r\nBcc: x@evil"
    let files : EmailFiles :=
      ⟨messageText exampleSmtp recipient subject "body",
        configText exampleSmtp recipient (messagePath [7])⟩
    sendEmailViaSmtp exampleSmtp recipient subject "body" true none [7] = .ok files ∧
      readConfig files.config ≠ intendedOptions exampleSmtp recipient (messagePath [7]) ∧
      ("proxy".toList, some "evil:80".toList) ∈ readConfig files.config ∧
      readHeader files.message ≠ intendedHeader exampleSmtp recipient subject ∧
      some ("Bcc".toList, " x@evil".toList) ∈ readHeader files.message := by
  refine ⟨rfl, ?_⟩
  decide +kernel

end OpcBridge.Alarms
