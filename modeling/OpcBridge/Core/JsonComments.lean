import Mathlib.Data.List.Basic

/-!
# Comments in JSON texts

`strip_json_comments`: a scanner takes `//` and `/* */` comments out of a text and leaves string
literals as they are. A text without a slash outside its strings stays as it is
(`stripChars_of_slashFree`), and so does one in which no slash outside its strings starts a comment
(`stripChars_of_commentFree`). What the scanner leaves is such a text (`commentFree_stripChars`), so
it has nothing to do there (`stripJsonComments_ok`).
-/

namespace OpcBridge

inductive StripState
  | normal
  | inString
  | inStringEscape
  | lineComment
  | blockComment
deriving DecidableEq

def stripChars : StripState → List Char → List Char
  | _, [] => []
  | .normal, c :: rest =>
    if c = '"' then c :: stripChars .inString rest
    else if c = '/' then
      match rest with
      | c2 :: rest =>
        if c2 = '/' then stripChars .lineComment rest
        else if c2 = '*' then stripChars .blockComment rest
        else c :: stripChars .normal (c2 :: rest)
      | [] => [c]
    else c :: stripChars .normal rest
  | .inString, c :: rest =>
    if c = '\\' then c :: stripChars .inStringEscape rest
    else if c = '"' then c :: stripChars .normal rest
    else c :: stripChars .inString rest
  | .inStringEscape, c :: rest => c :: stripChars .inString rest
  | .lineComment, c :: rest =>
    if c = '\n' then c :: stripChars .normal rest else stripChars .lineComment rest
  | .blockComment, c :: rest =>
    if c = '*' then
      match rest with
      | c2 :: rest =>
        if c2 = '/' then stripChars .normal rest else stripChars .blockComment (c2 :: rest)
      | [] => []
    else if c = '\n' then c :: stripChars .blockComment rest
    else stripChars .blockComment rest

def stripJsonComments (input : String) : String :=
  String.ofList (stripChars .normal input.toList)

/-- No slash stands outside the strings of a text. -/
def slashFree : StripState → List Char → Bool
  | .normal, c :: rest =>
    if c = '"' then slashFree .inString rest else c != '/' && slashFree .normal rest
  | .inString, c :: rest =>
    if c = '\\' then slashFree .inStringEscape rest
    else if c = '"' then slashFree .normal rest
    else slashFree .inString rest
  | .inStringEscape, _ :: rest => slashFree .inString rest
  | .lineComment, _ :: _ => false
  | .blockComment, _ :: _ => false
  | _, [] => true

theorem stripChars_of_slashFree {state : StripState} {text : List Char}
    (h : slashFree state text = true) : stripChars state text = text := by
  induction text generalizing state with
  | nil => cases state <;> rfl
  | cons c rest ih =>
    cases state with
    | normal =>
      rw [slashFree] at h
      rw [stripChars.eq_def]
      dsimp only
      by_cases hquote : c = '"'
      · rw [if_pos hquote] at h ⊢
        rw [ih h]
      · rw [if_neg hquote, Bool.and_eq_true, bne_iff_ne] at h
        rw [if_neg hquote, if_neg h.1, ih h.2]
    | inString =>
      rw [slashFree] at h
      rw [stripChars]
      split
      · rename_i hescape
        rw [if_pos hescape] at h
        rw [ih h]
      · rename_i hescape
        rw [if_neg hescape] at h
        split at h
        · rename_i hquote
          rw [if_pos hquote, ih h]
        · rename_i hquote
          rw [if_neg hquote, ih h]
    | inStringEscape =>
      rw [slashFree] at h
      rw [stripChars, ih h]
    | lineComment => cases h
    | blockComment => cases h

theorem stripJsonComments_of_slashFree {text : String}
    (h : slashFree .normal text.toList = true) : stripJsonComments text = text := by
  rw [stripJsonComments, stripChars_of_slashFree h, String.ofList_toList]

/-! ## What a comment is -/

/-- The state after a character of a text without comments. -/
def quoteStep : StripState → Char → StripState
  | .normal, c => if c = '"' then .inString else .normal
  | .inString, c => if c = '\\' then .inStringEscape else if c = '"' then .normal else .inString
  | .inStringEscape, _ => .inString
  | s, _ => s

/-- Neither `//` nor `/*` stands outside the strings of a text that starts in the state. -/
def CommentFree (state : StripState) (text : List Char) : Prop :=
  ∀ before c after, text = before ++ '/' :: c :: after → c = '/' ∨ c = '*' →
    before.foldl quoteStep state ≠ .normal

/-- The states of a text outside comments. -/
def StripState.Code (state : StripState) : Prop :=
  state = .normal ∨ state = .inString ∨ state = .inStringEscape

theorem quoteStep_code {state : StripState} (h : state.Code) (c : Char) :
    (quoteStep state c).Code := by
  rcases h with rfl | rfl | rfl
  · simp only [quoteStep]
    split
    · exact .inr (.inl rfl)
    · exact .inl rfl
  · simp only [quoteStep]
    split
    · exact .inr (.inr rfl)
    split
    · exact .inl rfl
    · exact .inr (.inl rfl)
  · exact .inr (.inl rfl)

theorem commentFree_nil (state : StripState) : CommentFree state [] := by
  intro before c after h
  exact absurd h (by simp)

theorem commentFree_cons {state : StripState} {c : Char} {rest : List Char} :
    CommentFree state (c :: rest) ↔
      (state = .normal → c = '/' → ∀ c2, rest.head? = some c2 → c2 ≠ '/' ∧ c2 ≠ '*') ∧
        CommentFree (quoteStep state c) rest := by
  constructor
  · intro h
    refine ⟨fun hstate hc c2 hc2 => ?_, fun before d after hrest => ?_⟩
    · obtain ⟨after, rfl⟩ := List.head?_eq_some_iff.1 hc2
      subst hc
      by_contra hcontra
      exact h [] c2 after rfl (by by_contra hne; exact hcontra (by simpa using hne)) hstate
    · exact h (c :: before) d after (by rw [hrest, List.cons_append])
  · rintro ⟨hfirst, hrest⟩ before d after htext hd hnormal
    cases before with
    | nil =>
      obtain ⟨rfl, rfl⟩ := List.cons.inj htext
      obtain ⟨hslash, hstar⟩ := hfirst hnormal rfl d rfl
      rcases hd with hd | hd
      · exact hslash hd
      · exact hstar hd
    | cons b before =>
      obtain ⟨rfl, rfl⟩ := List.cons.inj htext
      exact hrest before d after rfl hd hnormal

/-! ## What the scanner leaves -/

theorem stripChars_quote (rest : List Char) :
    stripChars .normal ('"' :: rest) = '"' :: stripChars .inString rest := by
  rw [stripChars.eq_def]
  rfl

/-- A character that starts neither a string nor a comment. -/
theorem stripChars_plain {c : Char} {rest : List Char} (hquote : c ≠ '"')
    (h : c = '/' → ∀ c2, rest.head? = some c2 → c2 ≠ '/' ∧ c2 ≠ '*') :
    stripChars .normal (c :: rest) = c :: stripChars .normal rest := by
  rw [stripChars.eq_def]
  dsimp only
  rw [if_neg hquote]
  by_cases hslash : c = '/'
  · rw [if_pos hslash]
    cases rest with
    | nil => rw [stripChars.eq_def]
    | cons c2 rest =>
      obtain ⟨hline, hblock⟩ := h hslash c2 rfl
      dsimp only
      rw [if_neg hline, if_neg hblock]
  · rw [if_neg hslash]

theorem stripChars_of_commentFree {state : StripState} {text : List Char} (hcode : state.Code)
    (h : CommentFree state text) : stripChars state text = text := by
  induction text generalizing state with
  | nil => cases state <;> rfl
  | cons c rest ih =>
    obtain ⟨hfirst, hrest⟩ := commentFree_cons.1 h
    have hnext := ih (quoteStep_code hcode c) hrest
    rcases hcode with rfl | rfl | rfl
    · by_cases hquote : c = '"'
      · subst hquote
        rw [stripChars_quote]
        exact congrArg _ hnext
      · rw [stripChars_plain hquote (hfirst rfl)]
        simp only [quoteStep, if_neg hquote] at hnext
        rw [hnext]
    · simp only [quoteStep] at hnext
      rw [stripChars]
      split
      · rename_i hescape
        rw [if_pos hescape] at hnext
        rw [hnext]
      · rename_i hescape
        rw [if_neg hescape] at hnext
        split
        · rename_i hquote
          rw [if_pos hquote] at hnext
          rw [hnext]
        · rename_i hquote
          rw [if_neg hquote] at hnext
          rw [hnext]
    · simp only [quoteStep] at hnext
      rw [stripChars, hnext]

theorem count_stripChars (state : StripState) (text : List Char) :
    (stripChars state text).count '\n' = text.count '\n' := by
  fun_induction stripChars state text with
  | case1 => rfl
  | _ => simp_all [List.count_cons]

/-- Where the text that is left continues: behind a comment it is outside strings. -/
def StripState.left : StripState → StripState
  | .lineComment => .normal
  | .blockComment => .normal
  | s => s

theorem CommentFree.push {state state' : StripState} {c : Char} {rest : List Char}
    (h : CommentFree state' rest) (hstep : quoteStep state c = state')
    (hplain : state = .normal → c ≠ '/') : CommentFree state (c :: rest) := by
  refine commentFree_cons.2 ⟨fun hstate hc => absurd hc (hplain hstate), ?_⟩
  rw [hstep]
  exact h

theorem head_stripChars {c : Char} (hslash : c ≠ '/') (rest : List Char) :
    (stripChars .normal (c :: rest)).head? = some c := by
  by_cases hquote : c = '"'
  · rw [hquote, stripChars_quote]
    rfl
  · rw [stripChars_plain hquote fun hc => absurd hc hslash]
    rfl

theorem commentFree_stripChars (state : StripState) (text : List Char) :
    CommentFree state.left (stripChars state text) := by
  fun_induction stripChars state text with
  | case1 => exact commentFree_nil _
  | case2 rest ih => exact ih.push rfl fun _ => by decide
  | case3 rest _ ih => exact ih
  | case4 rest _ _ ih => exact ih
  | case5 c2 rest hline hblock _ ih =>
    refine commentFree_cons.2 ⟨fun _ _ c hc => ?_, ih⟩
    rw [head_stripChars hline] at hc
    obtain rfl := Option.some.inj hc
    exact ⟨hline, hblock⟩
  | case6 =>
    refine commentFree_cons.2 ⟨fun _ _ c hc => ?_, commentFree_nil _⟩
    cases hc
  | case7 c rest hquote hslash ih => exact ih.push (if_neg hquote) fun _ => hslash
  | case8 rest ih => exact ih.push rfl fun h => by cases h
  | case9 rest _ ih => exact ih.push rfl fun h => by cases h
  | case10 c rest hescape hquote ih =>
    have hstep : quoteStep .inString c = .inString := by
      simp only [quoteStep, if_neg hescape, if_neg hquote]
    exact ih.push hstep fun h => by cases h
  | case11 c rest ih => exact ih.push rfl fun h => by cases h
  | case12 rest ih => exact ih.push rfl fun _ => by decide
  | case13 c rest _ ih => exact ih
  | case14 rest ih => exact ih
  | case15 c2 rest _ ih => exact ih
  | case16 => exact commentFree_nil _
  | case17 rest _ ih => exact ih.push rfl fun _ => by decide
  | case18 c rest _ _ ih => exact ih

/-! ## String literals -/

/-- What stands between the quotes of a literal. -/
inductive StringBody : List Char → Prop
  | nil : StringBody []
  | char {c : Char} {rest : List Char} (hquote : c ≠ '"') (hescape : c ≠ '\\')
      (h : StringBody rest) : StringBody (c :: rest)
  | escape {c : Char} {rest : List Char} (h : StringBody rest) : StringBody ('\\' :: c :: rest)

def IsLiteral (text : List Char) : Prop := ∃ body, StringBody body ∧ text = '"' :: (body ++ ['"'])

/-- Where a position of a text is. -/
inductive Position
  | code
  /-- Behind a slash that may start a comment. -/
  | slash
  | string
  | escape
  | line
  | block
  /-- Behind a star that may end a block comment. -/
  | star

def Position.step : Position → Char → Position
  | .code, c => if c = '"' then .string else if c = '/' then .slash else .code
  | .slash, c =>
    if c = '/' then .line else if c = '*' then .block else if c = '"' then .string else .code
  | .string, c => if c = '\\' then .escape else if c = '"' then .code else .string
  | .escape, _ => .string
  | .line, c => if c = '\n' then .code else .line
  | .block, c => if c = '*' then .star else .block
  | .star, c => if c = '/' then .code else if c = '*' then .star else .block

/-- The end of the text is neither in a string nor in a comment. -/
def EndsInCode (text : List Char) : Prop :=
  text.foldl Position.step .code = .code ∨ text.foldl Position.step .code = .slash

def StripState.position : StripState → Position
  | .normal => .code
  | .inString => .string
  | .inStringEscape => .escape
  | .lineComment => .line
  | .blockComment => .block

theorem stripChars_block {c : Char} (hc : c ≠ '*') (rest : List Char) :
    stripChars .blockComment (c :: rest) =
      if c = '\n' then c :: stripChars .blockComment rest else stripChars .blockComment rest := by
  rw [stripChars.eq_def]
  dsimp only
  rw [if_neg hc]

theorem stripChars_append {state : StripState} {before : List Char} {c : Char} {after : List Char}
    (hc : c ≠ '/' ∧ c ≠ '*')
    (h : before.foldl Position.step state.position = .code ∨
      before.foldl Position.step state.position = .slash) :
    stripChars state (before ++ c :: after) =
      stripChars state before ++ stripChars .normal (c :: after) := by
  induction state, before using stripChars.induct with
  | case1 state =>
    cases state with
    | normal => rfl
    | _ => exact absurd h (by simp [StripState.position])
  | case2 rest ih =>
    have hrest := ih h
    rw [List.cons_append, stripChars_quote, stripChars_quote, hrest, List.cons_append]
  | case7 d rest hquote hslash ih =>
    have hstep : Position.step .code d = .code := by
      simp only [Position.step, if_neg hquote, if_neg hslash]
    have hrest := ih (by simpa [StripState.position, hstep] using h)
    rw [List.cons_append, stripChars_plain hquote fun hd => absurd hd hslash,
      stripChars_plain hquote fun hd => absurd hd hslash, hrest, List.cons_append]
  | case17 rest hstar ih =>
    have hrest := ih h
    rw [List.cons_append, stripChars_block hstar, stripChars_block hstar, if_pos rfl, if_pos rfl,
      hrest, List.cons_append]
  | case18 d rest hstar hnewline ih =>
    have hstep : Position.step .block d = .block := by simp only [Position.step, if_neg hstar]
    have hrest := ih (by simpa [StripState.position, hstep] using h)
    rw [List.cons_append, stripChars_block hstar, stripChars_block hstar, if_neg hnewline,
      if_neg hnewline, hrest]
  | _ => simp_all [stripChars, Position.step, StripState.position]

theorem stripChars_stringBody {body : List Char} (h : StringBody body) (after : List Char) :
    stripChars .inString (body ++ '"' :: after) = body ++ '"' :: stripChars .normal after := by
  induction h with
  | nil => rfl
  | char hquote hescape _ ih =>
    rw [List.cons_append, stripChars, if_neg hescape, if_neg hquote, ih, List.cons_append]
  | escape _ ih =>
    rw [List.cons_append, List.cons_append, stripChars, if_pos rfl, stripChars, ih,
      List.cons_append, List.cons_append]

/-- A literal outside comments is copied. -/
theorem stripChars_literal {before lit : List Char} (hbefore : EndsInCode before)
    (hlit : IsLiteral lit) (after : List Char) :
    stripChars .normal (before ++ lit ++ after) =
      stripChars .normal before ++ lit ++ stripChars .normal after := by
  obtain ⟨body, hbody, rfl⟩ := hlit
  have hquote : '"' ≠ '/' ∧ '"' ≠ '*' := by decide
  have hsplit : stripChars .normal (before ++ '"' :: (body ++ '"' :: after)) =
      stripChars .normal before ++ stripChars .normal ('"' :: (body ++ '"' :: after)) :=
    stripChars_append hquote hbefore
  have hassoc : before ++ '"' :: (body ++ ['"']) ++ after =
      before ++ '"' :: (body ++ '"' :: after) := by simp
  rw [hassoc, hsplit, stripChars_quote, stripChars_stringBody hbody]
  simp

/-! ## Texts -/

theorem stripJsonComments_twice (text : String) :
    stripJsonComments (stripJsonComments text) = stripJsonComments text := by
  have hfree : CommentFree .normal (stripChars .normal text.toList) :=
    commentFree_stripChars .normal text.toList
  rw [stripJsonComments, stripJsonComments, String.toList_ofList,
    stripChars_of_commentFree (.inl rfl) hfree]

/-- What is kept, of any text. -/
theorem stripJsonComments_ok (text : String) :
    stripJsonComments (stripJsonComments text) = stripJsonComments text ∧
      (stripJsonComments text).toList.count '\n' = text.toList.count '\n' ∧
      (CommentFree .normal text.toList → stripJsonComments text = text) ∧
      ∀ before lit after, text.toList = before ++ lit ++ after → EndsInCode before →
        IsLiteral lit → (stripJsonComments text).toList =
          (stripJsonComments (String.ofList before)).toList ++ lit ++
            (stripJsonComments (String.ofList after)).toList := by
  refine ⟨stripJsonComments_twice text, ?_, fun hfree => ?_,
    fun before lit after htext hbefore hlit => ?_⟩
  · rw [stripJsonComments, String.toList_ofList, count_stripChars]
  · rw [stripJsonComments, stripChars_of_commentFree (.inl rfl) hfree, String.ofList_toList]
  · simp only [stripJsonComments, String.toList_ofList]
    rw [htext, stripChars_literal hbefore hlit]

end OpcBridge
