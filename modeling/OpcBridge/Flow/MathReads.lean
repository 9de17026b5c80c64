import OpcBridge.Flow.MathGrammar

/-!
# The parser of math expressions

`MathExpression` reads the texts of the grammar whose literals are those of `strtod`, and gives the
value of the tree where it is defined (`evaluate_renders`); it accepts no other text
(`renders_of_evaluate`). Each level of the parser is right for its level of the grammar (`Reads`),
for all texts shorter than a bound, and an opening parenthesis takes one level of the recursion.
-/

namespace OpcBridge.Flow

open Lib MathExpression

/-! ## Where a part of the grammar stops -/

/-- The next character that is not blank is one of these. -/
def Stops (cs r : List Char) : Prop := ∀ c ∈ (r.dropWhile isSpace).head?, c ∈ cs

def signedStops : List Char := ['+', '-', '*', '/', '%', ')', ',']

def termStops : List Char := ['+', '-', ')', ',']

def sumStops : List Char := [')', ',']

theorem Stops.mono {cs cs' r : List Char} (h : Stops cs r) (hcs : cs ⊆ cs') : Stops cs' r :=
  fun c hc => hcs (h c hc)

theorem stops_blank {cs w s : List Char} {c : Char} (hw : Blank w) (hc : isSpace c = false)
    (hmem : c ∈ cs) : Stops cs (w ++ c :: s) := by
  intro d hd
  rw [dropWhile_blanks hw hc] at hd
  obtain rfl := Option.some.inj hd
  exact hmem

theorem Stops.head {cs r : List Char} (h : Stops cs r) : ∀ c ∈ r.head?, isSpace c = true ∨ c ∈ cs := by
  intro c hc
  cases r with
  | nil => cases hc
  | cons d r =>
    obtain rfl := Option.some.inj hc
    by_cases hd : isSpace d = true
    · exact .inl hd
    · refine .inr (h d ?_)
      rw [List.dropWhile_cons_of_neg hd]
      rfl

theorem isSpace_alnum {c : Char} (h : isSpace c = true) :
    c.isAlphanum = false ∧ c ≠ '.' ∧ isNameChar c = false := by
  simp only [isSpace, Bool.or_eq_true, beq_iff_eq] at h
  rcases h with ((((rfl | rfl) | rfl) | rfl) | rfl) | rfl <;> decide

theorem signedStops_alnum {c : Char} (h : c ∈ signedStops) :
    c.isAlphanum = false ∧ c ≠ '.' ∧ isNameChar c = false := by
  revert c
  decide

/-- A number or a name ends there. -/
theorem Stops.ends {r : List Char} (h : Stops signedStops r) :
    NumberEnds r ∧ ∀ c ∈ r.head?, isNameChar c = false := by
  have hall : ∀ c ∈ r.head?, c.isAlphanum = false ∧ c ≠ '.' ∧ isNameChar c = false := by
    intro c hc
    rcases h.head c hc with hspace | hmem
    · exact isSpace_alnum hspace
    · exact signedStops_alnum hmem
  exact ⟨fun c hc => ⟨(hall c hc).1, (hall c hc).2.1⟩, fun c hc => (hall c hc).2.2⟩

/-! ## Signed operands -/

section
variable {α : Type} [MathOps α] {inputs : List (String × α)} {n : Nat}

theorem isDigit_eq (c : Char) : isDigit c = c.isDigit := rfl

/-- An operand without signs starts with a character that is no sign and not blank. -/
theorem PrimaryText.head {e : Expr} {u : List Char} (h : PrimaryText NumberLiteral e u) :
    ∃ c t, u = c :: t ∧ isSpace c = false ∧ c ≠ '+' ∧ c ≠ '-' ∧ c ≠ ')' := by
  have hname : ∀ {c : Char}, isNameChar c = true →
      isSpace c = false ∧ c ≠ '+' ∧ c ≠ '-' ∧ c ≠ ')' := by
    intro c hc
    refine ⟨?_, ?_, ?_, ?_⟩
    · by_contra hspace
      rw [(isSpace_alnum (by simpa using hspace)).2.2] at hc
      cases hc
    · rintro rfl
      cases hc
    · rintro rfl
      cases hc
    · rintro rfl
      cases hc
  cases h with
  | literal hu =>
    obtain ⟨c, t, rfl, hc⟩ := hu.head
    rcases hc with hc | rfl
    · refine ⟨c, t, rfl, hname ?_⟩
      rw [isNameChar, isAlnum, isDigit_eq, hc]
      simp
    · exact ⟨'.', t, rfl, by decide⟩
  | input hu =>
    obtain ⟨c, t, ht⟩ := List.exists_cons_of_ne_nil hu.ne_nil
    refine ⟨c, t, ht, hname (hu.chars c ?_)⟩
    rw [ht]
    exact List.mem_cons_self
  | paren => exact ⟨'(', _, rfl, by decide⟩
  | @call f args u w w' _ _ _ =>
    have hfirst : ∃ c t, f.name.toList = c :: t ∧ isSpace c = false ∧ c ≠ '+' ∧ c ≠ '-' ∧
        c ≠ ')' := by
      cases f <;> exact ⟨_, _, rfl, by decide⟩
    obtain ⟨c, t, ht, hc⟩ := hfirst
    rw [ht]
    exact ⟨c, _, rfl, hc⟩

theorem unary_primary {p : Reader String α} {c : Char} {s : List Char}
    (hc : isSpace c = false ∧ c ≠ '+' ∧ c ≠ '-' ∧ c ≠ ')') : unary p (c :: s) = p (c :: s) := by
  rw [unary, hc.1, if_neg (by simp), if_neg hc.2.1, if_neg hc.2.2.1]

/-- Blanks before an operand. -/
def Padded (e : Expr) (u : List Char) : Prop :=
  ∃ b v, u = b ++ v ∧ Blank b ∧ PrimaryText NumberLiteral e v

theorem Padded.signed {e : Expr} {u : List Char} (h : Padded e u) :
    SignedText NumberLiteral e u := by
  obtain ⟨b, v, rfl, hb, hv⟩ := h
  induction b with
  | nil => exact .primary hv
  | cons c b ih =>
    rw [Blank, List.forall_mem_cons] at hb
    exact .blank hb.1 (ih hb.2)

theorem PrimaryText.padded {e : Expr} {u : List Char} (h : PrimaryText NumberLiteral e u) :
    Padded e u := ⟨[], u, rfl, List.forall_mem_nil _, h⟩

theorem unary_reads {p : Reader String α}
    (h : Reads isSpace n p (Stops signedStops) (Means inputs Padded)) :
    Reads isSpace n (unary p) (Stops signedStops) (Means inputs (SignedText NumberLiteral)) where
  complete := by
    intro u r o hu hr hlen
    obtain ⟨e, he, rfl⟩ := hu
    induction u generalizing e with
    | nil =>
      cases he with
      | primary he =>
        obtain ⟨c, t, ht, -⟩ := he.head
        cases ht
    | cons c u ih =>
      have hlen' : (u ++ r).length < n := by
        simp only [List.length_append, List.length_cons] at hlen ⊢
        omega
      cases he with
      | primary he =>
        obtain ⟨d, t, ht, hd⟩ := he.head
        obtain ⟨rfl, rfl⟩ := List.cons.inj ht
        rw [List.cons_append, unary_primary hd]
        exact h.complete ⟨e, he.padded, rfl⟩ hr hlen
      | blank hc he =>
        rw [List.cons_append, unary, if_pos hc]
        exact ih hlen' e he
      | @pos e u he =>
        rw [List.cons_append, unary, if_neg (by decide), if_pos rfl]
        exact ih hlen' e he
      | @neg e u he =>
        obtain ⟨r', hr', hread⟩ := ih hlen' e he
        refine ⟨r', hr', ?_⟩
        rw [List.cons_append, unary, if_neg (by decide), if_neg (by decide), if_pos rfl,
          toOption_map, hread, Expr.value]
        cases e.value inputs <;> rfl
  sound := by
    intro s r' v hs
    induction s generalizing v with
    | nil =>
      obtain ⟨u, r, hu, hr, e, he, hv⟩ := h.sound (show p [] = _ from hs)
      exact ⟨u, r, hu, hr, e, he.signed, hv⟩
    | cons c s ih =>
      rw [unary] at hs
      split at hs
      · rename_i hc
        obtain ⟨u, r, hu, hr, e, he, hv⟩ := ih hs
        exact ⟨c :: u, r, by rw [hu]; rfl, hr, e, .blank hc he, hv⟩
      · split at hs
        · rename_i hc
          obtain ⟨u, r, hu, hr, e, he, hv⟩ := ih hs
          exact ⟨c :: u, r, by rw [hu]; rfl, hr, .pos e, by rw [hc]; exact .pos he, hv⟩
        · split at hs
          · rename_i hc
            obtain ⟨x, hx, hv⟩ := ok_of_map hs
            obtain ⟨hv, hrest⟩ := Prod.mk.inj hv
            obtain ⟨u, r, hu, hr, e, he, hvalue⟩ := ih (v := x.1) (by rw [hx, ← hrest])
            refine ⟨c :: u, r, by rw [hu]; rfl, hr, .neg e, by rw [hc]; exact .neg he, ?_⟩
            rw [Expr.value, hvalue, ← hv]
            rfl
          · obtain ⟨u, r, hu, hr, e, he, hv⟩ := h.sound hs
            exact ⟨u, r, hu, hr, e, he.signed, hv⟩

/-! ## Operands -/

variable {size : Nat} {p : Reader String α}

theorem primary_paren {s t : List Char} (h : whitespace s = '(' :: t) :
    primary inputs size p s = p t >>= fun x => close size x.1 x.2 := by
  unfold primary
  rw [h]
  rfl

theorem primary_other {s : List Char} (h : (whitespace s).head? ≠ some '(') :
    primary inputs size p s =
      if (whitespace s).head?.any fun c => isDigit c || c == '.' then number (whitespace s)
      else if (whitespace s).takeWhile isNameChar = [] then
        fail size "expected a number, input, or function" (whitespace s)
      else inputOrCall inputs size p (String.ofList ((whitespace s).takeWhile isNameChar))
        ((whitespace s).dropWhile isNameChar) := by
  unfold primary
  split
  · rename_i heq
    exact absurd (by rw [heq]; rfl) h
  · rfl

theorem whitespace_cons {c : Char} {s : List Char} (h : isSpace c = false) :
    whitespace (c :: s) = c :: s := List.dropWhile_cons_of_neg (by simp [h])

/-- A closing parenthesis after blanks. -/
theorem close_paren {w r rest : List Char} (hw : Blank w)
    (h : rest.dropWhile isSpace = (w ++ ')' :: r).dropWhile isSpace) :
    whitespace rest = ')' :: r := h.trans (dropWhile_blanks hw (by decide))

theorem number_complete {u r : List Char} {q : ℚ} (h : NumberLiteral u q)
    (hr : Stops signedStops r) :
    (primary inputs size p (u ++ r)).toOption = (MathOps.ofRat q : Option α).map fun v => (v, r) := by
  obtain ⟨c, t, rfl, hc⟩ := h.head
  have hspace : isSpace c = false := by
    rcases hc with hc | rfl
    · by_contra hn
      have halnum := (isSpace_alnum (by simpa using hn)).1
      simp [Char.isAlphanum, hc] at halnum
    · decide
  have hparen : c ≠ '(' := by
    rcases hc with hc | rfl
    · rintro rfl
      cases hc
    · decide
  have hws : whitespace (c :: t ++ r) = c :: t ++ r := whitespace_cons hspace
  rw [primary_other (by rw [hws]; simpa using hparen), hws]
  have hany : ((c :: t ++ r).head?.any fun c => isDigit c || c == '.') = true := by
    rcases hc with hc | rfl
    · simp [isDigit_eq, hc]
    · rfl
  rw [if_pos hany, number, scanNumber_literal h hr.ends.1]
  dsimp only
  cases (MathOps.ofRat q : Option α) <;> rfl

/-- A name is read up to the text after it. -/
theorem name_read {u s : List Char} (hne : u ≠ []) (hu : ∀ c ∈ u, isNameChar c = true)
    (hfirst : ∀ c ∈ u.head?, isDigit c = false) (hs : ∀ c ∈ s.head?, isNameChar c = false) :
    primary inputs size p (u ++ s) = inputOrCall inputs size p (String.ofList u) s := by
  obtain ⟨c, t, rfl⟩ := List.exists_cons_of_ne_nil hne
  have hc := hu c List.mem_cons_self
  have hspace : isSpace c = false := by
    by_contra hn
    rw [(isSpace_alnum (by simpa using hn)).2.2] at hc
    cases hc
  have hws : whitespace (c :: t ++ s) = c :: t ++ s := whitespace_cons hspace
  have hparen : c ≠ '(' := by
    rintro rfl
    cases hc
  have hpoint : c ≠ '.' := by
    rintro rfl
    cases hc
  have hany : ¬ ((c :: t ++ s).head?.any fun c => isDigit c || c == '.') = true := by
    have hdigit := hfirst c rfl
    simp [hdigit, hpoint]
  obtain ⟨htake, hdrop⟩ := Notation.takeWhile_stop hu hs
  rw [primary_other (by rw [hws]; simpa using hparen), hws, if_neg hany, htake, hdrop, if_neg hne]

/-! ## Calls -/

theorem function_name (size : Nat) (f : Fn) (args : List α) (rest : List Char) :
    (function size f.name args rest).toOption = f.apply args := by
  have hsqrt : ∀ x : α, (function size "sqrt" [x] rest).toOption = Fn.sqrt.apply [x] := by
    intro x
    show Except.toOption (if _ then _ else _) = if _ then _ else _
    split <;> rfl
  cases f with
  | sqrt => rcases args with _ | ⟨x, _ | ⟨y, args⟩⟩ <;> first | rfl | exact hsqrt x
  | pow | round => rcases args with _ | ⟨x, _ | ⟨y, _ | ⟨z, args⟩⟩⟩ <;> rfl
  | clamp => rcases args with _ | ⟨x, _ | ⟨y, _ | ⟨z, _ | ⟨t, args⟩⟩⟩⟩ <;> rfl
  | _ => rcases args with _ | ⟨x, _ | ⟨y, args⟩⟩ <;> rfl

theorem function_inv {name : String} {args : List α} {rest : List Char} {v : α}
    (h : function size name args rest = .ok v) : ∃ f : Fn, f.name = name ∧ f.apply args = some v := by
  have hname : ∃ f : Fn, f.name = name := by
    unfold function at h
    split at h
    · exact ⟨.abs, rfl⟩
    · exact ⟨.sqrt, rfl⟩
    · exact ⟨.floor, rfl⟩
    · exact ⟨.ceil, rfl⟩
    · exact ⟨.pow, rfl⟩
    · exact ⟨.clamp, rfl⟩
    · exact ⟨.round, rfl⟩
    · exact ⟨.round, rfl⟩
    · exact ⟨.min, rfl⟩
    · exact ⟨.max, rfl⟩
    · cases h
  obtain ⟨f, rfl⟩ := hname
  exact ⟨f, rfl, by rw [← function_name size f args rest, h]; rfl⟩

theorem Fn.apply_nil (f : Fn) : (f.apply [] : Option α) = none := by
  cases f <;> rfl

/-- The text does not start with a closing parenthesis. -/
def Opens (u : List Char) : Prop :=
  ∃ b c t, u = b ++ c :: t ∧ Blank b ∧ isSpace c = false ∧ c ≠ ')'

theorem Opens.append {u : List Char} (h : Opens u) (v : List Char) : Opens (u ++ v) := by
  obtain ⟨b, c, t, rfl, hb, hc⟩ := h
  exact ⟨b, c, t ++ v, by simp, hb, hc⟩

theorem SignedText.opens {e : Expr} {u : List Char} (h : SignedText NumberLiteral e u) :
    Opens u := by
  induction u generalizing e with
  | nil =>
    cases h with
    | primary he =>
      obtain ⟨c, t, ht, -⟩ := he.head
      cases ht
  | cons c u ih =>
    cases h with
    | primary he =>
      obtain ⟨d, t, ht, hspace, -, -, hd⟩ := he.head
      exact ⟨[], d, t, ht, List.forall_mem_nil _, hspace, hd⟩
    | blank hc he =>
      obtain ⟨b, d, t, rfl, hb, hd⟩ := ih he
      exact ⟨c :: b, d, t, rfl, List.forall_mem_cons.2 ⟨hc, hb⟩, hd⟩
    | pos he => exact ⟨[], '+', u, rfl, List.forall_mem_nil _, by decide⟩
    | neg he => exact ⟨[], '-', u, rfl, List.forall_mem_nil _, by decide⟩

theorem ArgsText.opens (inputs : List (String × α)) {es : List Expr} {u : List Char}
    (h : ArgsText NumberLiteral es u) : Opens u := by
  have hterm : ∀ {e u}, TermText NumberLiteral e u → Opens u := by
    intro e u he
    have hchain : Chained isSpace (opOf termOps) (Means inputs (SignedText NumberLiteral)) u _ :=
      chained_of_term _ (Nat.lt_succ_self _) he
    exact hchain.start (fun u v hu => hu.append v) fun u o ⟨e, he, _⟩ => he.opens
  have hsum : ∀ {e u}, SumText NumberLiteral e u → Opens u := by
    intro e u he
    have hchain : Chained isSpace (opOf sumOps) (Means inputs (TermText NumberLiteral)) u _ :=
      chained_of_sum _ (Nat.lt_succ_self _) he
    exact hchain.start (fun u v hu => hu.append v) fun u o ⟨e, he, _⟩ => hterm he
  have hchain : Chained isSpace commaOp (MeansOne inputs NumberLiteral) u _ :=
    chained_of_args _ (Nat.lt_succ_self _) h
  exact hchain.start (fun u v hu => hu.append v) fun u o ⟨e, he, _⟩ => hsum he

theorem argument_reads
    (h : Reads isSpace n p (Stops sumStops) (Means inputs (SumText NumberLiteral))) :
    Reads isSpace n (argument p) (Stops sumStops) (MeansOne inputs NumberLiteral) where
  complete := by
    intro u r o hu hr hlen
    obtain ⟨e, he, rfl⟩ := hu
    obtain ⟨r', hr', hread⟩ := h.complete ⟨e, he, rfl⟩ hr hlen
    refine ⟨r', hr', ?_⟩
    rw [argument, toOption_map, hread]
    cases e.value inputs <;> rfl
  sound := by
    intro s r' v hs
    obtain ⟨⟨x, rest⟩, hx, heq⟩ := ok_of_map hs
    obtain ⟨rfl, rfl⟩ := Prod.mk.inj heq
    obtain ⟨u, r, hu, hr, e, he, hvalue⟩ := h.sound hx
    exact ⟨u, r, hu, hr, e, he, by rw [hvalue]; rfl⟩

omit [MathOps α] in
theorem sameOps_comma :
    SameOps argumentOp (commaOp : Char → Option (List α → List α → Option (List α))) := by
  intro c
  unfold argumentOp commaOp
  split <;> rfl

/-- The arguments of a call. -/
theorem arguments_reads
    (h : Reads isSpace n p (Stops sumStops) (Means inputs (SumText NumberLiteral))) :
    Reads isSpace n (chain isSpace (argument p) argumentOp) (Stops [')'])
      (MeansArgs inputs NumberLiteral) := by
  have hcomma : ∀ {c : Char} {f : List α → List α → Option (List α)}, commaOp c = some f → c = ',' := by
    intro c f hc
    unfold commaOp at hc
    split at hc
    · assumption
    · cases hc
  have hchain : Reads isSpace n (chain isSpace (argument p) argumentOp) (Stops [')'])
      (Chained isSpace commaOp (MeansOne inputs NumberLiteral)) := by
    refine chain_reads sameOps_comma (argument_reads h) ?_ ?_ ?_ ?_
    · intro c f w s hc hw
      obtain rfl := hcomma hc
      exact stops_blank hw (by decide) (by decide)
    · intro c f hc
      obtain rfl := hcomma hc
      decide
    · exact fun r hr => hr.mono (by decide)
    · intro r hr c hc
      have hmem := hr c hc
      rw [List.mem_singleton] at hmem
      subst hmem
      rfl
  refine hchain.congr fun u o => ⟨fun ⟨es, hes, ho⟩ => ?_, args_of_chained⟩
  rw [← ho]
  exact chained_of_args _ (Nat.lt_succ_self _) hes

theorem call_other {name : String} {s : List Char} (h : (whitespace s).head? ≠ some ')') :
    call size p name s =
      chain isSpace (argument p) argumentOp s >>= fun x => closeCall size name x.1 x.2 := by
  unfold call
  split
  · rename_i heq
    exact absurd (by rw [heq]; rfl) h
  · rfl

theorem inputOrCall_paren {name : String} {s t : List Char} (h : whitespace s = '(' :: t) :
    inputOrCall inputs size p name s = call size p name t := by
  unfold inputOrCall
  rw [h]
  rfl

theorem inputOrCall_other {name : String} {s : List Char} (h : (whitespace s).head? ≠ some '(') :
    (inputOrCall inputs size p name s).toOption =
      (inputs.lookup name).map fun v => (v, whitespace s) := by
  unfold inputOrCall
  split
  · rename_i heq
    exact absurd (by rw [heq]; rfl) h
  · cases inputs.lookup name <;> rfl

theorem Opens.head {u : List Char} (h : Opens u) (s : List Char) :
    (whitespace (u ++ s)).head? ≠ some ')' := by
  obtain ⟨b, c, t, rfl, hb, hspace, hc⟩ := h
  have hws : whitespace ((b ++ c :: t) ++ s) = c :: (t ++ s) := by
    rw [List.append_assoc, List.cons_append]
    exact dropWhile_blanks hb hspace
  rw [hws]
  simpa using hc

theorem Fn.name_isName (f : Fn) : IsName f.name.toList := by
  cases f <;> exact ⟨by decide, by decide, by decide⟩

/-- A call after its name and opening parenthesis. -/
theorem call_complete
    (h : Reads isSpace n p (Stops sumStops) (Means inputs (SumText NumberLiteral)))
    {f : Fn} {es : List Expr} {u w r : List Char} (hes : ArgsText NumberLiteral es u)
    (hw : Blank w) (hlen : (u ++ (w ++ ')' :: r)).length < n) :
    (call size p f.name (u ++ (w ++ ')' :: r))).toOption =
      ((Expr.values inputs es).bind f.apply).map fun v => (v, r) := by
  obtain ⟨r', hr', hread⟩ := (arguments_reads h).complete ⟨es, hes, rfl⟩
    (stops_blank hw (by decide) (List.mem_singleton.2 rfl)) hlen
  rw [call_other ((hes.opens inputs).head _), toOption_bind, hread]
  cases Expr.values inputs es with
  | none => rfl
  | some xs =>
    show (closeCall size f.name xs r').toOption = _
    unfold closeCall
    rw [close_paren hw hr']
    show ((function size f.name xs r).map _).toOption = _
    rw [toOption_map, function_name]
    rfl

/-- **Operands.** -/
theorem primary_complete
    (h : Reads isSpace n p (Stops sumStops) (Means inputs (SumText NumberLiteral))) {e : Expr}
    {u r : List Char} (he : PrimaryText NumberLiteral e u) (hr : Stops signedStops r)
    (hlen : (u ++ r).length < n + 1) :
    ∃ r', r'.dropWhile isSpace = r.dropWhile isSpace ∧
      (primary inputs size p (u ++ r)).toOption = (e.value inputs).map fun v => (v, r') := by
  cases he with
  | literal hu => exact ⟨r, rfl, number_complete hu hr⟩
  | @input name hu =>
    refine ⟨whitespace r, dropWhile_idem _ _, ?_⟩
    have hparen : (whitespace r).head? ≠ some '(' := by
      intro hhead
      exact absurd (hr '(' hhead) (by decide)
    rw [name_read hu.ne_nil hu.chars hu.first hr.ends.2, String.ofList_toList,
      inputOrCall_other hparen]
    rfl
  | @paren e u w he hw =>
    have htext : ('(' :: (u ++ (w ++ [')']))) ++ r = '(' :: (u ++ (w ++ ')' :: r)) := by simp
    rw [htext] at hlen ⊢
    obtain ⟨r', hr', hread⟩ := h.complete ⟨e, he, rfl⟩
      (stops_blank hw (by decide) (by decide) : Stops sumStops (w ++ ')' :: r))
      (by rw [List.length_cons] at hlen; omega)
    refine ⟨r, rfl, ?_⟩
    rw [primary_paren (whitespace_cons (by decide)), toOption_bind, hread]
    cases e.value inputs with
    | none => rfl
    | some v =>
      show (close size v r').toOption = _
      unfold close
      rw [close_paren hw hr']
      rfl
  | @call f es u w w' hes hw hw' =>
    have htext : (f.name.toList ++ (w ++ '(' :: (u ++ (w' ++ [')'])))) ++ r =
        f.name.toList ++ (w ++ '(' :: (u ++ (w' ++ ')' :: r))) := by simp
    rw [htext] at hlen ⊢
    have hname := f.name_isName
    have hstop : Stops ['('] (w ++ '(' :: (u ++ (w' ++ ')' :: r))) :=
      stops_blank hw (by decide) (List.mem_singleton.2 rfl)
    have hend : ∀ c ∈ (w ++ '(' :: (u ++ (w' ++ ')' :: r))).head?, isNameChar c = false := by
      intro c hc
      rcases hstop.head c hc with hspace | hmem
      · exact (isSpace_alnum hspace).2.2
      · rw [List.mem_singleton.1 hmem]
        decide
    refine ⟨r, rfl, ?_⟩
    rw [name_read hname.ne_nil hname.chars hname.first hend, String.ofList_toList,
      inputOrCall_paren (dropWhile_blanks hw (by decide)), call_complete h hes hw' ?_]
    · rw [Expr.value]
    · simp only [List.length_append, List.length_cons] at hlen ⊢
      omega

/-- The blanks before a text. -/
theorem split_blanks (s : List Char) : ∃ b, s = b ++ whitespace s ∧ Blank b :=
  ⟨s.takeWhile isSpace, (List.takeWhile_append_dropWhile (p := isSpace)).symm, fun _ hc =>
    List.all_eq_true.1 List.all_takeWhile _ hc⟩

/-- A text that goes on with a closing parenthesis after blanks. -/
theorem split_paren {rest r t : List Char} (h : whitespace rest = ')' :: t)
    (hr : rest.dropWhile isSpace = r.dropWhile isSpace) : ∃ w, r = w ++ ')' :: t ∧ Blank w := by
  obtain ⟨w, hw, hblank⟩ := split_blanks r
  refine ⟨w, ?_, hblank⟩
  rw [whitespace, ← hr, ← whitespace, h] at hw
  exact hw

theorem number_sound {s rest : List Char} {v : α} (h : number s = .ok (v, rest)) :
    ∃ u q, s = u ++ rest ∧ NumberLiteral u q ∧ MathOps.ofRat q = some v := by
  unfold number at h
  split at h
  · cases h
  · rename_i q t hscan
    split at h
    · cases h
    · rename_i x hx
      obtain ⟨rfl, rfl⟩ := Prod.mk.inj (Except.ok.inj h)
      obtain ⟨u, hs, hu⟩ := literal_of_scanNumber hscan
      exact ⟨u, q, hs, hu, hx⟩

theorem call_sound
    (h : Reads isSpace n p (Stops sumStops) (Means inputs (SumText NumberLiteral))) {name : String}
    {s rest : List Char} {v : α} (hcall : call size p name s = .ok (v, rest)) :
    ∃ (f : Fn) (es : List Expr) (u w : List Char), f.name = name ∧ ArgsText NumberLiteral es u ∧
      Blank w ∧ s = u ++ (w ++ ')' :: rest) ∧ (Expr.values inputs es).bind f.apply = some v := by
  unfold call at hcall
  split at hcall
  · obtain ⟨x, hx, -⟩ := ok_of_map hcall
    obtain ⟨f, -, hf⟩ := function_inv hx
    rw [f.apply_nil] at hf
    cases hf
  · have hbind := congrArg Except.toOption hcall
    rw [toOption_bind] at hbind
    obtain ⟨⟨xs, t⟩, hread, hclose⟩ := Option.bind_eq_some_iff.1 hbind
    have hclose := ok_of_toOption hclose
    obtain ⟨u, r, htext, hr, es, hes, hvalues⟩ := (arguments_reads h).sound (ok_of_toOption hread)
    dsimp only [closeCall] at hclose
    split at hclose
    · rename_i t' ht
      obtain ⟨x, hx, heq⟩ := ok_of_map hclose
      obtain ⟨rfl, rfl⟩ := Prod.mk.inj heq
      obtain ⟨f, hname, hf⟩ := function_inv hx
      obtain ⟨w, hw, hblank⟩ := split_paren ht hr
      refine ⟨f, es, u, w, hname, hes, hblank, by rw [htext, hw], ?_⟩
      rw [hvalues]
      exact hf
    · cases hclose

/-- A name with its arguments. -/
theorem name_sound
    (h : Reads isSpace n p (Stops sumStops) (Means inputs (SumText NumberLiteral)))
    {s rest : List Char} {v : α}
    (hfirst : ¬ (s.head?.any fun c => isDigit c || c == '.') = true)
    (hs : (if s.takeWhile isNameChar = [] then
        fail size "expected a number, input, or function" s
      else inputOrCall inputs size p (String.ofList (s.takeWhile isNameChar))
        (s.dropWhile isNameChar)) = .ok (v, rest)) :
    ∃ u r, s = u ++ r ∧ rest.dropWhile isSpace = r.dropWhile isSpace ∧
      Means inputs (PrimaryText NumberLiteral) u (some v) := by
  have hsplit : s = s.takeWhile isNameChar ++ s.dropWhile isNameChar :=
    (List.takeWhile_append_dropWhile (p := isNameChar)).symm
  have hchars : ∀ c ∈ s.takeWhile isNameChar, isNameChar c = true := fun c hc =>
    List.all_eq_true.1 List.all_takeWhile c hc
  split at hs
  · cases hs
  rename_i hne
  generalize s.takeWhile isNameChar = name at hs hsplit hchars hne
  generalize s.dropWhile isNameChar = t at hs hsplit
  subst hsplit
  unfold inputOrCall at hs
  split at hs
  · rename_i t' ht
    obtain ⟨f, es, u, w, hname, hes, hw, htext, hvalue⟩ := call_sound h hs
    obtain ⟨b, hb, hblank⟩ := split_blanks t
    have hname : name = f.name.toList := by rw [hname, String.toList_ofList]
    refine ⟨name ++ (b ++ '(' :: (u ++ (w ++ [')']))), rest, ?_, rfl, .call f es, ?_, ?_⟩
    · rw [hb, ht, htext]
      simp
    · rw [hname]
      exact .call hes hblank hw
    · rw [Expr.value, hvalue]
  · split at hs
    · cases hs
    · rename_i x hx
      obtain ⟨rfl, rfl⟩ := Prod.mk.inj (Except.ok.inj hs)
      refine ⟨name, t, rfl, dropWhile_idem _ _, .input (String.ofList name), ?_, ?_⟩
      · have hinput : IsName (String.ofList name).toList := by
          rw [String.toList_ofList]
          refine ⟨hne, hchars, fun c hc => ?_⟩
          obtain ⟨d, ds, rfl⟩ := List.exists_cons_of_ne_nil hne
          obtain rfl := Option.some.inj hc
          by_contra hdigit
          exact hfirst (by simp [by simpa using hdigit])
        have htext : PrimaryText NumberLiteral (.input (String.ofList name)) _ := .input hinput
        rw [String.toList_ofList] at htext
        exact htext
      · rw [Expr.value, hx]

theorem primary_sound
    (h : Reads isSpace n p (Stops sumStops) (Means inputs (SumText NumberLiteral)))
    {s rest : List Char} {v : α} (hs : primary inputs size p s = .ok (v, rest)) :
    ∃ u r, s = u ++ r ∧ rest.dropWhile isSpace = r.dropWhile isSpace ∧
      Means inputs Padded u (some v) := by
  obtain ⟨b, hb, hblank⟩ := split_blanks s
  unfold primary at hs
  split at hs
  · rename_i t ht
    have hbind := congrArg Except.toOption hs
    rw [toOption_bind] at hbind
    obtain ⟨⟨x, t'⟩, hread, hclose⟩ := Option.bind_eq_some_iff.1 hbind
    have hclose := ok_of_toOption hclose
    obtain ⟨u, r, htext, hr, e, he, hvalue⟩ := h.sound (ok_of_toOption hread)
    dsimp only [close] at hclose
    split at hclose
    · rename_i t₂ ht₂
      obtain ⟨rfl, rfl⟩ := Prod.mk.inj (Except.ok.inj hclose)
      obtain ⟨w, hw, hwblank⟩ := split_paren ht₂ hr
      refine ⟨b ++ '(' :: (u ++ (w ++ [')'])), t₂, ?_, rfl, e, ⟨b, _, rfl, hblank, .paren he hwblank⟩,
        hvalue⟩
      rw [hb, ht, htext, hw]
      simp
    · cases hclose
  · rename_i hparen
    split at hs
    · obtain ⟨u, q, htext, hu, hvalue⟩ := number_sound hs
      refine ⟨b ++ u, rest, ?_, rfl, .literal q, ⟨b, u, rfl, hblank, .literal hu⟩, hvalue⟩
      rw [hb, htext, List.append_assoc]
    · rename_i hany
      obtain ⟨u, r, htext, hr, hmeans⟩ := name_sound h hany hs
      obtain ⟨e, he, hvalue⟩ := hmeans
      refine ⟨b ++ u, r, ?_, hr, e, ⟨b, u, rfl, hblank, he⟩, hvalue⟩
      rw [hb, htext, List.append_assoc]

/-! ## All levels -/

theorem primary_reads
    (h : Reads isSpace n p (Stops sumStops) (Means inputs (SumText NumberLiteral))) :
    Reads isSpace (n + 1) (primary inputs size p) (Stops signedStops) (Means inputs Padded) where
  complete := by
    intro u r o hu hr hlen
    obtain ⟨e, ⟨b, v, rfl, hb, hv⟩, rfl⟩ := hu
    have hblank : primary inputs size p (b ++ v ++ r) = primary inputs size p (v ++ r) := by
      unfold primary
      rw [List.append_assoc, whitespace, List.dropWhile_append_of_pos hb]
      rfl
    rw [hblank]
    refine primary_complete h hv hr ?_
    simp only [List.length_append] at hlen ⊢
    omega
  sound := primary_sound h

theorem sameOps_sum : SameOps sumOp (opOf sumOps : Char → Option (α → α → Option α)) := by
  intro c
  by_cases hadd : c = '+'
  · subst hadd
    rfl
  by_cases hsub : c = '-'
  · subst hsub
    rfl
  have hnone : (opOf sumOps c : Option (α → α → Option α)) = none := by
    simp [opOf, sumOps, BinOp.char, Ne.symm hadd, Ne.symm hsub]
  rw [hnone, sumOp, if_neg hadd, if_neg hsub]
  rfl

theorem sameOps_term (size : Nat) :
    SameOps (termOp size) (opOf termOps : Char → Option (α → α → Option α)) := by
  intro c
  by_cases hmul : c = '*'
  · subst hmul
    rfl
  by_cases hdiv : c = '/'
  · subst hdiv
    refine congrArg some (funext fun x => funext fun y => funext fun rest => ?_)
    show Except.toOption (if _ then _ else _) = if _ then _ else _
    split <;> rfl
  by_cases hrem : c = '%'
  · subst hrem
    refine congrArg some (funext fun x => funext fun y => funext fun rest => ?_)
    show Except.toOption (if _ then _ else _) = if _ then _ else _
    split <;> rfl
  have hnone : (opOf termOps c : Option (α → α → Option α)) = none := by
    simp [opOf, termOps, BinOp.char, Ne.symm hmul, Ne.symm hdiv, Ne.symm hrem]
  rw [hnone, termOp, if_neg hmul, if_neg hdiv, if_neg hrem]
  rfl

/-- No operator of a level starts a text at which the level stops. -/
theorem opOf_none {ops : List BinOp} {cs : List Char} (hops : ∀ op ∈ ops, op.char ∉ cs) {c : Char}
    (hc : c ∈ cs) : (opOf ops c : Option (α → α → Option α)) = none := by
  cases h : (opOf ops c : Option (α → α → Option α)) with
  | none => rfl
  | some f =>
    obtain ⟨op, hop, rfl, -⟩ := opOf_inv h
    exact absurd hc (hops op hop)

theorem BinOp.char_not_space (op : BinOp) : isSpace op.char = false := by
  cases op <;> decide

theorem term_reads {q : Reader String α}
    (h : Reads isSpace n q (Stops signedStops) (Means inputs (SignedText NumberLiteral))) :
    Reads isSpace n (chain isSpace q (termOp size)) (Stops termStops)
      (Means inputs (TermText NumberLiteral)) := by
  have hchain : Reads isSpace n (chain isSpace q (termOp size)) (Stops termStops)
      (Chained isSpace (opOf termOps) (Means inputs (SignedText NumberLiteral))) := by
    have hops : ∀ op ∈ termOps, op.char ∈ signedStops := by decide
    refine chain_reads (sameOps_term size) h ?_ ?_ ?_ ?_
    · intro c f w s hc hw
      obtain ⟨op, hop, rfl, -⟩ := opOf_inv hc
      exact stops_blank hw op.char_not_space (hops op hop)
    · intro c f hc
      obtain ⟨op, -, rfl, -⟩ := opOf_inv hc
      exact op.char_not_space
    · exact fun r hr => hr.mono (by decide)
    · exact fun r hr c hc => opOf_none (by decide) (hr c hc)
  refine hchain.congr fun u o => ⟨fun ⟨e, he, ho⟩ => ?_, term_of_chained⟩
  rw [← ho]
  exact chained_of_term _ (Nat.lt_succ_self _) he

theorem sum_reads {q : Reader String α}
    (h : Reads isSpace n q (Stops termStops) (Means inputs (TermText NumberLiteral))) :
    Reads isSpace n (chain isSpace q sumOp) (Stops sumStops)
      (Means inputs (SumText NumberLiteral)) := by
  have hchain : Reads isSpace n (chain isSpace q sumOp) (Stops sumStops)
      (Chained isSpace (opOf sumOps) (Means inputs (TermText NumberLiteral))) := by
    have hops : ∀ op ∈ sumOps, op.char ∈ termStops := by decide
    refine chain_reads sameOps_sum h ?_ ?_ ?_ ?_
    · intro c f w s hc hw
      obtain ⟨op, hop, rfl, -⟩ := opOf_inv hc
      exact stops_blank hw op.char_not_space (hops op hop)
    · intro c f hc
      obtain ⟨op, -, rfl, -⟩ := opOf_inv hc
      exact op.char_not_space
    · exact fun r hr => hr.mono (by decide)
    · exact fun r hr c hc => opOf_none (by decide) (hr c hc)
  refine hchain.congr fun u o => ⟨fun ⟨e, he, ho⟩ => ?_, sum_of_chained⟩
  rw [← ho]
  exact chained_of_sum _ (Nat.lt_succ_self _) he

/-- **The parser is right for the grammar** on the texts that are shorter than the recursion is
deep. -/
theorem expression_reads (inputs : List (String × α)) (size : Nat) (n : Nat) :
    Reads isSpace n (expression inputs size n) (Stops sumStops)
      (Means inputs (SumText NumberLiteral)) := by
  induction n with
  | zero => exact ⟨fun _ _ hlen => absurd hlen (Nat.not_lt_zero _), fun hs => (by cases hs)⟩
  | succ n ih => exact sum_reads (term_reads (unary_reads (primary_reads ih)))

/-! ## Whole texts -/

/-- The result of a text that is an expression: the value if it is defined and finite. -/
theorem evaluate_renders {e : Expr} {text : String} (h : Renders NumberLiteral e text.toList)
    (inputs : List (String × α)) :
    (evaluate text inputs).toOption = (e.value inputs).filter fun v => MathOps.isFinite v := by
  obtain ⟨u, w, htext, hu, hw⟩ := h
  have hend : w.dropWhile isSpace = [] := List.dropWhile_eq_nil_iff.2 hw
  have hstop : Stops sumStops w := by
    intro c hc
    rw [hend] at hc
    cases hc
  obtain ⟨r', hr', hread⟩ :=
    (expression_reads inputs text.toList.length (text.toList.length + 1)).complete
      ⟨e, hu, rfl⟩ hstop (by rw [htext]; omega)
  rw [← htext] at hread
  have hrest : whitespace r' = [] := hr'.trans hend
  unfold evaluate
  dsimp only
  rw [toOption_bind, hread]
  cases e.value inputs with
  | none => rfl
  | some v =>
    show Except.toOption (if whitespace r' ≠ [] then _ else _) = _
    rw [hrest, if_neg (by simp)]
    cases hv : MathOps.isFinite v <;> simp [Option.filter, hv, fail, Except.toOption]

/-- Whatever is accepted is an expression with that value. -/
theorem renders_of_evaluate {text : String} {inputs : List (String × α)} {v : α}
    (h : evaluate text inputs = .ok v) :
    ∃ e, Renders NumberLiteral e text.toList ∧ e.value inputs = some v ∧
      MathOps.isFinite v = true := by
  unfold evaluate at h
  have hbind := congrArg Except.toOption h
  rw [toOption_bind] at hbind
  obtain ⟨⟨x, rest⟩, hread, hend⟩ := Option.bind_eq_some_iff.1 hbind
  have hend := ok_of_toOption hend
  obtain ⟨u, r, htext, hr, e, he, hvalue⟩ :=
    (expression_reads inputs _ _).sound (ok_of_toOption hread)
  dsimp only at hend
  split at hend
  · cases hend
  rename_i hrest
  split at hend
  · cases hend
  rename_i hfinite
  obtain rfl := Except.ok.inj hend
  refine ⟨e, ⟨u, r, htext, he, ?_⟩, hvalue, by simpa using hfinite⟩
  have hnil : r.dropWhile isSpace = [] := by
    rw [← hr]
    simpa [whitespace] using hrest
  exact List.dropWhile_eq_nil_iff.1 hnil

/-- The empty text is no expression. -/
theorem not_renders_empty (inputs : List (String × α)) (e : Expr) :
    ¬ Renders NumberLiteral e "".toList := by
  rintro ⟨u, w, htext, hu, -⟩
  obtain ⟨b, c, t, rfl, -⟩ := (ArgsText.one hu).opens inputs
  have hlen := congrArg List.length htext
  simp only [List.length_append, List.length_cons, String.toList_empty, List.length_nil] at hlen
  omega

end

end OpcBridge.Flow
