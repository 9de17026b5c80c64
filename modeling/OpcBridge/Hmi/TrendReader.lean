import OpcBridge.Hmi.TrendGrammar
import OpcBridge.Lib.Traverse

/-!
# What the compiler of trend expressions reads

The reader takes the texts of the wider grammar without a quoted closing parenthesis after a
function name, by induction on the nesting (`expression_sound`, `expression_complete`). The
evaluation goes along the tree (`run_accesses`).
-/

namespace OpcBridge.Hmi

open Lib

/-! ## Function names -/

/-- Every function name is followed by two tokens of the text, the second not the literal `")"`. -/
def Shut (ts : List Token) : Prop :=
  ∀ pre name rest, name ∈ functions → ts = pre ++ .symbol name :: rest →
    ∃ a b more, rest = a :: b :: more ∧ b ≠ .string (js ")")

theorem Shut.noQuotedClose {ts : List Token} (h : Shut ts) : NoQuotedClose ts := by
  rintro pre name a rest hname rfl
  obtain ⟨a', b, more, hrest, hb⟩ := h pre name _ hname rfl
  cases hrest
  exact hb rfl

theorem shut_nil : Shut [] := by
  rintro pre name rest - h
  exact absurd h (by simp)

theorem Shut.append {ls rs : List Token} (hl : Shut ls) (hr : Shut rs) : Shut (ls ++ rs) := by
  intro pre name rest hname h
  rcases List.append_eq_append_iff.1 h with ⟨mid, rfl, hmid⟩ | ⟨mid, rfl, hmid⟩
  · exact hr mid name rest hname hmid
  · cases mid with
    | nil =>
      rw [List.nil_append] at hmid
      exact hr [] name rest hname hmid.symm
    | cons t mid =>
      rw [List.cons_append, List.cons.injEq] at hmid
      obtain ⟨rfl, rfl⟩ := hmid
      obtain ⟨a, b, more, rfl, hb⟩ := hl pre name mid hname rfl
      exact ⟨a, b, more ++ rs, rfl, hb⟩

theorem Shut.cons {t : Token} {ts : List Token} (ht : ∀ name ∈ functions, t ≠ .symbol name)
    (h : Shut ts) : Shut (t :: ts) := by
  intro pre name rest hname heq
  cases pre with
  | nil =>
    rw [List.nil_append, List.cons.injEq] at heq
    exact absurd heq.1 (ht name hname)
  | cons t' pre =>
    rw [List.cons_append, List.cons.injEq] at heq
    exact h pre name rest hname heq.2

theorem Shut.call {name : JsString} {a b : Token} {ts : List Token} (hb : b ≠ .string (js ")"))
    (h : Shut (a :: b :: ts)) : Shut (.symbol name :: a :: b :: ts) := by
  intro pre name' rest hname heq
  cases pre with
  | nil =>
    rw [List.nil_append, List.cons.injEq] at heq
    exact ⟨a, b, ts, heq.2.symm, hb⟩
  | cons t' pre =>
    rw [List.cons_append, List.cons.injEq] at heq
    exact h pre name' rest hname heq.2

/-- A text in which one token stands alone. -/
theorem Shut.single {t : Token} (ht : ∀ name ∈ functions, t ≠ .symbol name) : Shut [t] :=
  shut_nil.cons ht

theorem not_function {text : String} (htext : js text ∉ functions) {token : Token}
    (h : Reads true token text) : ∀ name ∈ functions, token ≠ .symbol name := by
  intro name hname heq
  subst heq
  rcases h with h | ⟨-, h⟩
  · cases h
    exact htext hname
  · cases h

theorem NoQuotedClose.part {ls ts rs : List Token} (h : NoQuotedClose (ls ++ ts ++ rs)) :
    NoQuotedClose ts := by
  rintro pre name a rest hname rfl
  exact h (ls ++ pre) name a (rest ++ rs) hname (by simp)

@[simp] theorem js_inj {s t : String} : js s = js t ↔ s = t := by
  have hmap : Function.Injective (List.map Char.toNat) :=
    List.map_injective_iff.2 fun _ _ h => Char.toNat_inj.1 h
  rw [js, js, hmap.eq_iff, String.toList_inj]

theorem functions_plain : js "(" ∉ functions ∧ js ")" ∉ functions ∧ js "," ∉ functions ∧
    js "tag" ∉ functions ∧ js "quality" ∉ functions ∧ js "true" ∉ functions ∧
    js "false" ∉ functions ∧ js "null" ∉ functions ∧
    ∀ op ∈ ["!", "+", "-"].map js, op ∉ functions := by simp [functions]

/-- An operator is not a function name. -/
theorem operator_not_function {token : Token} {p : Nat} (h : operators.level token = some p) :
    ∀ name ∈ functions, token ≠ .symbol name := by
  have hnone : ∀ name ∈ functions, precedence name = none := by
    simp [functions, precedence, precedenceTable]
  intro name hname heq
  subst heq
  rw [show operators.level (.symbol name) = precedence name from rfl, hnone name hname] at h
  cases h

theorem level_le {token : Token} {p : Nat} (h : operators.level token = some p) : p ≤ 7 := by
  have htable : ∀ entry ∈ precedenceTable, entry.2 ≤ 7 := by decide
  obtain ⟨op, -, hop⟩ := Option.bind_eq_some_iff.1 h
  obtain ⟨entry, hentry, rfl⟩ := Option.map_eq_some_iff.1 hop
  exact htable entry (List.mem_of_find?_eq_some hentry)

/-- Punctuation ends an expression. -/
theorem stops_of_reads {token : Token} {text : String} {p : Nat} {rest : List Token}
    (htext : precedence (js text) = none) (h : Reads true token text) :
    operators.Stops p (token :: rest) := by
  intro t ht q hq
  obtain rfl := Option.some.inj ht
  rw [show operators.level token = token.text.bind precedence from rfl, reads_text.1 h] at hq
  rw [Option.bind_some, htext] at hq
  cases hq

theorem punctuation_level : precedence (js "(") = none ∧ precedence (js ")") = none ∧
    precedence (js ",") = none := by simp [precedence, precedenceTable]

/-! ## Soundness -/

theorem take_ok {value : String} {ts rest : List Token} :
    take value ts = .ok rest ↔ ∃ token, ts = token :: rest ∧ Reads true token value := by
  unfold take
  cases ts with
  | nil => simp
  | cons token ts =>
    simp only [List.cons.injEq]
    constructor
    · intro h
      split at h
      · rename_i htext
        cases h
        exact ⟨token, ⟨rfl, rfl⟩, reads_text.2 htext⟩
      · cases h
    · rintro ⟨_, ⟨rfl, rfl⟩, hreads⟩
      rw [if_pos (reads_text.1 hreads)]

section
variable {parse : Nat → List Token → Except String (Parsed × List Token)} {sub : Reading}

/-- A reader returns texts of the grammar, and stops. -/
def Sound (parse : Nat → List Token → Except String (Parsed × List Token)) (sub : Reading) : Prop :=
  ∀ p ts a rest, p ≤ 7 → parse p ts = .ok (a, rest) →
    ∃ used, ts = used ++ rest ∧ (sub p used a ∧ Shut used) ∧ operators.Stops p rest

theorem arguments_sound (hparse : Sound parse sub) {fuel : Nat} {ts rest : List Token}
    {args : List Node × List (JsString × JsString)}
    (h : arguments parse fuel ts = .ok (args, rest)) :
    ∃ used, ts = used ++ rest ∧ ArgumentList true sub used args ∧ Shut used := by
  induction fuel generalizing ts args with
  | zero => cases h
  | succ fuel ih =>
    rw [arguments] at h
    obtain ⟨⟨a, rest'⟩, hfirst, hmore⟩ := bind_ok.1 h
    clear h
    obtain ⟨used, rfl, ⟨hsub, hshut⟩, -⟩ := hparse _ _ _ _ (by omega) hfirst
    cases rest' with
    | nil =>
      cases hmore
      exact ⟨used, rfl, .one hsub, hshut⟩
    | cons token more =>
      dsimp only at hmore
      split at hmore
      · rename_i hcomma
        obtain ⟨⟨others, rest''⟩, hothers, hdone⟩ := bind_ok.1 hmore
        cases hdone
        obtain ⟨used', rfl, hlist, hshut'⟩ := ih hothers
        have hreads := reads_text.2 hcomma
        refine ⟨used ++ token :: used', by simp, .more hsub hreads hlist, ?_⟩
        exact hshut.append (hshut'.cons (not_function functions_plain.2.2.1 hreads))
      · cases hmore
        exact ⟨used, rfl, .one hsub, hshut⟩

theorem tagReference_sound {ts rest : List Token} {a : Parsed}
    (h : tagReference ts = .ok (a, rest)) :
    ∃ used, ts = used ++ rest ∧ Closed true sub (.symbol (js "tag") :: used) a ∧ Shut used := by
  unfold tagReference at h
  obtain ⟨ts1, htake1, h1⟩ := bind_ok.1 h
  obtain ⟨ts2, htake2, h2⟩ := bind_ok.1 h1
  obtain ⟨ts3, htake3, h3⟩ := bind_ok.1 h2
  clear h h1 h2
  obtain ⟨opening, rfl, hopen⟩ := take_ok.1 htake1
  obtain ⟨comma, heq, hcomma⟩ := take_ok.1 htake2
  obtain ⟨close, heq', hclose⟩ := take_ok.1 htake3
  clear htake1 htake2 htake3
  cases ts1 with
  | nil => cases heq
  | cons c ts1 =>
    cases ts2 with
    | nil => cases heq'
    | cons t ts2 =>
      rw [List.drop_one, List.tail_cons] at heq heq'
      subst heq
      subst heq'
      cases c with
      | number text => cases h3
      | symbol value => cases h3
      | string connection =>
        cases t with
        | number text => cases h3
        | symbol value => cases h3
        | string tag =>
          dsimp only [List.head?_cons] at h3
          split at h3
          · cases h3
          · rename_i hnames
            rw [not_or] at hnames
            cases h3
            refine ⟨[opening, .string connection, comma, .string tag, close], rfl,
              .tag hopen hcomma hclose hnames.1 hnames.2, ?_⟩
            refine .cons (not_function functions_plain.1 hopen) (.cons (by simp)
              (.cons (not_function functions_plain.2.2.1 hcomma) (.cons (by simp)
                (.single (not_function functions_plain.2.1 hclose)))))

theorem functionCall_sound (hparse : Sound parse sub) {name : JsString} (hname : name ∈ functions)
    {ts rest : List Token} {a : Parsed} (h : functionCall parse name ts = .ok (a, rest)) :
    ∃ used, ts = used ++ rest ∧ Closed true sub (.symbol name :: used) a ∧
      Shut (.symbol name :: used) := by
  unfold functionCall at h
  obtain ⟨ts1, htake1, h1⟩ := bind_ok.1 h
  clear h
  obtain ⟨opening, rfl, hopen⟩ := take_ok.1 htake1
  split at h1
  · cases h1
  rename_i hfirst
  obtain ⟨⟨args, rest'⟩, hargs, h2⟩ := bind_ok.1 h1
  obtain ⟨rest'', htake2, h3⟩ := bind_ok.1 h2
  cases h3
  clear h1 h2
  obtain ⟨used, rfl, hlist, hshut⟩ := arguments_sound hparse hargs
  obtain ⟨close, rfl, hclose⟩ := take_ok.1 htake2
  refine ⟨opening :: (used ++ [close]), by simp, .call hname hopen hlist hclose, ?_⟩
  have hends := hshut.append (.single (not_function functions_plain.2.1 hclose))
  -- the first token of the arguments is not a closing parenthesis
  cases used with
  | nil => exact absurd (reads_text.1 hclose) hfirst
  | cons b used =>
    refine .call (fun hb => ?_) (hends.cons (not_function functions_plain.1 hopen))
    rw [hb] at hfirst
    exact hfirst rfl

theorem qualityNode_ok {a node : Parsed} {second : Option Parsed}
    (h : qualityNode a second = .ok node) :
    (∃ connection tag refs, a = (.tag connection tag, refs) ∧
        node = (.quality connection tag, refs ++ (second.map Prod.snd).getD [])) ∨
      ∃ connection tag refs refs', a = (.literal (.string connection), refs) ∧
        second = some (.literal (.string tag), refs') ∧ connection ≠ [] ∧ tag ≠ [] ∧
        node = (.quality connection tag, refs ++ refs' ++ [(connection, tag)]) := by
  obtain ⟨arg, refs⟩ := a
  unfold qualityNode at h
  dsimp only at h
  split at h
  · rename_i connection tag hsecond
    obtain ⟨⟨other, refs'⟩, rfl, rfl⟩ := Option.map_eq_some_iff.1 hsecond
    split at h
    · cases h
    · rename_i hnames
      rw [not_or] at hnames
      cases h
      exact .inr ⟨_, _, _, _, rfl, rfl, hnames.1, hnames.2, rfl⟩
  · cases h
    exact .inl ⟨_, _, _, rfl, rfl⟩
  · cases h

theorem qualityReference_sound (hparse : Sound parse sub) {ts rest : List Token} {a : Parsed}
    (h : qualityReference parse ts = .ok (a, rest)) :
    ∃ used, ts = used ++ rest ∧ Closed true sub (.symbol (js "quality") :: used) a ∧
      Shut used := by
  unfold qualityReference at h
  obtain ⟨ts1, htake1, h1⟩ := bind_ok.1 h
  clear h
  obtain ⟨opening, rfl, hopen⟩ := take_ok.1 htake1
  obtain ⟨⟨arg, rest'⟩, harg, h2⟩ := bind_ok.1 h1
  clear h1
  obtain ⟨used, rfl, ⟨hsub, hshut⟩, -⟩ := hparse _ _ _ _ (by omega) harg
  have hopens := not_function functions_plain.1 hopen
  cases rest' with
  | nil => cases h2
  | cons token more =>
    dsimp only at h2
    split at h2
    · rename_i htext
      have hcomma := reads_text.2 htext
      obtain ⟨⟨second, rest''⟩, hsecond, h3⟩ := bind_ok.1 h2
      obtain ⟨rest3, htake2, h4⟩ := bind_ok.1 h3
      obtain ⟨node, hnode, h5⟩ := bind_ok.1 h4
      clear h2 h3 h4
      cases h5
      obtain ⟨used', rfl, ⟨hsub', hshut'⟩, -⟩ := hparse _ _ _ _ (by omega) hsecond
      obtain ⟨close, rfl, hclose⟩ := take_ok.1 htake2
      have hends : Shut (opening :: (used ++ token :: (used' ++ [close]))) :=
        (hshut.append ((hshut'.append (.single (not_function functions_plain.2.1 hclose))).cons
          (not_function functions_plain.2.2.1 hcomma))).cons hopens
      refine ⟨opening :: (used ++ token :: (used' ++ [close])), by simp, ?_, hends⟩
      rcases qualityNode_ok hnode with
        ⟨connection, tag, refs, rfl, rfl⟩ | ⟨connection, tag, refs, refs', rfl, heq, hc, ht, rfl⟩
      · exact .qualitySecond rfl hopen hsub hcomma hsub' hclose
      · cases heq
        exact .qualityNames hopen hsub hcomma hsub' hclose hc ht
    · obtain ⟨rest3, htake2, h4⟩ := bind_ok.1 h2
      obtain ⟨node, hnode, h5⟩ := bind_ok.1 h4
      clear h2 h4
      cases h5
      obtain ⟨close, heq, hclose⟩ := take_ok.1 htake2
      cases heq
      have hends : Shut (opening :: (used ++ [token])) :=
        (hshut.append (.single (not_function functions_plain.2.1 hclose))).cons hopens
      refine ⟨opening :: (used ++ [token]), by simp, ?_, hends⟩
      rcases qualityNode_ok hnode with
        ⟨connection, tag, refs, rfl, rfl⟩ | ⟨connection, tag, refs, refs', rfl, heq, -⟩
      · simpa using Closed.qualityTag hopen hsub hclose
      · cases heq

/-- **The first operand** is closed, or signed and followed by no power. -/
theorem operand_sound (hparse : Sound parse sub) {ts rest : List Token} {a : Parsed}
    (h : operand parse ts = .ok (a, rest)) :
    ∃ used, ts = used ++ rest ∧ Shut used ∧
      (Closed true sub used a ∨ Signed sub used a ∧ operators.Stops 7 rest) := by
  cases ts with
  | nil => cases h
  | cons token ts =>
    cases token with
    | number text =>
      cases h
      exact ⟨[.number text], rfl, .single (by simp), .inl (.number text)⟩
    | string value =>
      cases h
      exact ⟨[.string value], rfl, .single (by simp), .inl (.string value)⟩
    | symbol value =>
      have hplain := functions_plain
      have hother : ∀ text : JsString, text ∉ functions →
          ∀ name ∈ functions, Token.symbol text ≠ .symbol name := by
        rintro text htext name hname heq
        cases heq
        exact htext hname
      rw [operand] at h
      split at h
      · rename_i hop
        obtain ⟨⟨arg, rest'⟩, harg, h1⟩ := bind_ok.1 h
        cases h1
        obtain ⟨used, rfl, ⟨hsub, hshut⟩, hstop⟩ := hparse _ _ _ _ le_rfl harg
        refine ⟨.symbol value :: used, rfl, hshut.cons (hother _ ?_), .inr ⟨.mk hop hsub, hstop⟩⟩
        exact hplain.2.2.2.2.2.2.2.2 value hop
      split at h
      · rename_i hvalue
        subst hvalue
        obtain ⟨⟨node, rest'⟩, hnode, h1⟩ := bind_ok.1 h
        obtain ⟨rest'', htake, h2⟩ := bind_ok.1 h1
        clear h h1
        cases h2
        obtain ⟨used, rfl, ⟨hsub, hshut⟩, -⟩ := hparse _ _ _ _ (by omega) hnode
        obtain ⟨close, rfl, hclose⟩ := take_ok.1 htake
        refine ⟨.symbol (js "(") :: (used ++ [close]), by simp, ?_, .inl (.paren hsub hclose)⟩
        exact (hshut.append (.single (not_function hplain.2.1 hclose))).cons (hother _ hplain.1)
      split at h
      · rename_i hvalue
        subst hvalue
        cases h
        exact ⟨[_], rfl, .single (hother _ hplain.2.2.2.2.2.1), .inl .yes⟩
      split at h
      · rename_i hvalue
        subst hvalue
        cases h
        exact ⟨[_], rfl, .single (hother _ hplain.2.2.2.2.2.2.1), .inl .no⟩
      split at h
      · rename_i hvalue
        subst hvalue
        cases h
        exact ⟨[_], rfl, .single (hother _ hplain.2.2.2.2.2.2.2.1), .inl .null⟩
      split at h
      · rename_i hvalue
        subst hvalue
        obtain ⟨used, rfl, hclosed, hshut⟩ : ∃ used, ts = used ++ rest ∧
            Closed true sub (.symbol (js "tag") :: used) a ∧ Shut used := tagReference_sound h
        exact ⟨.symbol (js "tag") :: used, rfl, hshut.cons (hother _ hplain.2.2.2.1), .inl hclosed⟩
      split at h
      · rename_i hvalue
        subst hvalue
        obtain ⟨used, rfl, hclosed, hshut⟩ := qualityReference_sound hparse h
        exact ⟨.symbol (js "quality") :: used, rfl, hshut.cons (hother _ hplain.2.2.2.2.1),
          .inl hclosed⟩
      split at h
      · rename_i hname
        obtain ⟨used, rfl, hclosed, hshut⟩ := functionCall_sound hparse hname h
        exact ⟨.symbol value :: used, rfl, hshut, .inl hclosed⟩
      · cases h

end

/-- **The reader returns texts of the wider grammar.** -/
theorem expression_sound (n : Nat) : Sound (expression n) (Derives true n) := by
  induction n with
  | zero =>
    intro p ts a rest _ h
    cases h
  | succ n ih =>
    intro p ts a rest hp h
    rw [expression] at h
    obtain ⟨⟨first, rest'⟩, hfirst, hclimb⟩ := bind_ok.1 h
    clear h
    obtain ⟨used, rfl, hshut, hstart⟩ := operand_sound ih hfirst
    have hstarted : operators.Started
        (fun ts a => Closed true (Derives true n) ts a ∧ Shut ts)
        (fun ts a => Signed (Derives true n) ts a ∧ Shut ts)
        (fun p ts a => Derives true n p ts a ∧ Shut ts) p used first rest' := by
      rcases hstart with hclosed | ⟨hsigned, hstop⟩
      · exact .inl ⟨hclosed, hshut⟩
      · exact .inr ⟨7, hp, .bare ⟨hsigned, hshut⟩, hstop⟩
    obtain ⟨more, rfl, hchain, hstop⟩ :=
      Operators.climb_sound (fun _ _ h => level_le h) ih hp hstarted hclimb
    refine ⟨used ++ more, by simp, ⟨?_, ?_⟩, hstop⟩
    · refine Operators.Chain.imp hchain rfl rfl (fun t q hq => ?_) (fun _ _ h => h.1)
        (fun _ _ h => h.1) fun _ _ _ h => h.1
      rw [grammarOperators_true]
      exact hq
    · refine hchain.ind (P := fun ts _ => Shut ts) (fun _ _ h => h.2) (fun _ _ h => h.2)
        (fun _ _ _ h => h.2) fun t q ls rs _ _ ht hl hr => ?_
      exact hl.append (hr.cons (operator_not_function ht))

/-! ## Completeness -/

section
variable {parse : Nat → List Token → Except String (Parsed × List Token)} {sub : Reading}

/-- A reader returns every text of the grammar after which it stops. -/
def Complete (parse : Nat → List Token → Except String (Parsed × List Token)) (sub : Reading) :
    Prop :=
  ∀ p ts a rest, sub p ts a ∧ NoQuotedClose ts → operators.Stops p rest →
    parse p (ts ++ rest) = .ok (a, rest)

theorem take_reads {value : String} {token : Token} (h : Reads true token value)
    (rest : List Token) : take value (token :: rest) = .ok rest := take_ok.2 ⟨token, rfl, h⟩

/-- The text begins, and not with a closing parenthesis. -/
def Begins (ts : List Token) : Prop := ∃ t more, ts = t :: more ∧ t ≠ .symbol (js ")")

theorem Begins.append {ts : List Token} (h : Begins ts) (rest : List Token) :
    Begins (ts ++ rest) := by
  obtain ⟨t, more, rfl, ht⟩ := h
  exact ⟨t, more ++ rest, rfl, ht⟩

theorem ArgumentList.begins (hbegins : ∀ p ts a, sub p ts a → Begins ts) {ts : List Token}
    {args : List Node × List (JsString × JsString)} (h : ArgumentList true sub ts args) :
    Begins ts := by
  cases h with
  | one h => exact hbegins _ _ _ h
  | more h => exact (hbegins _ _ _ h).append _

theorem Closed.begins {ts : List Token} {a : Parsed} (h : Closed true sub ts a) : Begins ts := by
  cases h with
  | number text => exact ⟨_, _, rfl, by simp⟩
  | string value => exact ⟨_, _, rfl, by simp⟩
  | yes => exact ⟨_, _, rfl, by simp⟩
  | no => exact ⟨_, _, rfl, by simp⟩
  | null => exact ⟨_, _, rfl, by simp⟩
  | paren => exact ⟨_, _, rfl, by simp⟩
  | tag => exact ⟨_, _, rfl, by simp⟩
  | qualityTag => exact ⟨_, _, rfl, by simp⟩
  | qualityNames => exact ⟨_, _, rfl, by simp⟩
  | qualitySecond => exact ⟨_, _, rfl, by simp⟩
  | call hname =>
    refine ⟨_, _, rfl, fun heq => ?_⟩
    cases heq
    exact functions_plain.2.1 hname

/-- A part of a text without a quoted closing parenthesis after a name. -/
theorem NoQuotedClose.of_eq {ts part : List Token} (h : NoQuotedClose ts) (ls rs : List Token)
    (heq : ts = ls ++ part ++ rs) : NoQuotedClose part := by
  rw [heq] at h
  exact h.part

theorem arguments_complete (hparse : Complete parse sub) {ts rest : List Token}
    {args : List Node × List (JsString × JsString)} (h : ArgumentList true sub ts args)
    (hquoted : NoQuotedClose ts) {close : Token} (hclose : Reads true close ")") {fuel : Nat}
    (hfuel : ts.length < fuel) :
    arguments parse fuel (ts ++ close :: rest) = .ok (args, close :: rest) := by
  have hstops : operators.Stops 0 (close :: rest) := stops_of_reads punctuation_level.2.1 hclose
  induction h generalizing fuel with
  | @one ts a h =>
    cases fuel with
    | zero => omega
    | succ fuel =>
      rw [arguments, hparse _ _ _ _ ⟨h, hquoted⟩ hstops]
      have hcomma : close.text ≠ some (js ",") := by
        rw [reads_text.1 hclose]
        decide
      show (if close.text = some (js ",") then _ else _) = _
      rw [if_neg hcomma]
  | @more ts others comma a args h hcomma hrest ih =>
    cases fuel with
    | zero => omega
    | succ fuel =>
      have hpart := hquoted.of_eq [] (comma :: others) rfl
      have hparts : NoQuotedClose others := hquoted.of_eq (ts ++ [comma]) [] (by simp)
      rw [List.length_append, List.length_cons] at hfuel
      rw [List.append_assoc, List.cons_append, arguments,
        hparse _ _ _ _ ⟨h, hpart⟩ (stops_of_reads punctuation_level.2.2 hcomma)]
      show (if comma.text = some (js ",") then _ else _) = _
      rw [if_pos (reads_text.1 hcomma), ih hparts (by omega)]
      rfl

theorem tagReference_complete {opening comma close : Token} {connection tag : JsString}
    (hopen : Reads true opening "(") (hcomma : Reads true comma ",")
    (hclose : Reads true close ")") (hc : connection ≠ []) (ht : tag ≠ []) (rest : List Token) :
    tagReference (opening :: .string connection :: comma :: .string tag :: close :: rest) =
      .ok ((.tag connection tag, [(connection, tag)]), rest) := by
  have h1 := take_reads hopen (.string connection :: comma :: .string tag :: close :: rest)
  have h2 := take_reads hcomma (.string tag :: close :: rest)
  have h3 := take_reads hclose rest
  unfold tagReference
  rw [h1]
  show (take "," (comma :: .string tag :: close :: rest) >>= _) = _
  rw [h2]
  show (take ")" (close :: rest) >>= _) = _
  rw [h3]
  show (if connection = [] ∨ tag = [] then _ else _) = _
  rw [if_neg (by simp [hc, ht])]

theorem qualityOne_complete (hparse : Complete parse sub) {opening close : Token}
    {ts : List Token} {a node : Parsed} (hopen : Reads true opening "(") (h : sub 0 ts a)
    (hquoted : NoQuotedClose ts) (hclose : Reads true close ")")
    (hnode : qualityNode a none = .ok node) (rest : List Token) :
    qualityReference parse (opening :: (ts ++ close :: rest)) = .ok (node, rest) := by
  have h1 := take_reads hopen (ts ++ close :: rest)
  have h2 := hparse 0 ts a (close :: rest) ⟨h, hquoted⟩
    (stops_of_reads punctuation_level.2.1 hclose)
  have h3 := take_reads hclose rest
  have hcomma : close.text ≠ some (js ",") := by
    rw [reads_text.1 hclose]
    decide
  unfold qualityReference
  rw [h1]
  show (parse 0 (ts ++ close :: rest) >>= _) = _
  rw [h2]
  show (if close.text = some (js ",") then _ else _) = _
  rw [if_neg hcomma, h3]
  show (qualityNode a none >>= _) = _
  rw [hnode]
  rfl

theorem qualityTwo_complete (hparse : Complete parse sub) {opening comma close : Token}
    {ts ts' : List Token} {a second node : Parsed} (hopen : Reads true opening "(")
    (h : sub 0 ts a) (hquoted : NoQuotedClose ts) (hcomma : Reads true comma ",")
    (h' : sub 0 ts' second) (hquoted' : NoQuotedClose ts') (hclose : Reads true close ")")
    (hnode : qualityNode a (some second) = .ok node) (rest : List Token) :
    qualityReference parse (opening :: (ts ++ comma :: (ts' ++ close :: rest)))
      = .ok (node, rest) := by
  have h1 := take_reads hopen (ts ++ comma :: (ts' ++ close :: rest))
  have h2 := hparse 0 ts a (comma :: (ts' ++ close :: rest)) ⟨h, hquoted⟩
    (stops_of_reads punctuation_level.2.2 hcomma)
  have h3 := hparse 0 ts' second (close :: rest) ⟨h', hquoted'⟩
    (stops_of_reads punctuation_level.2.1 hclose)
  have h4 := take_reads hclose rest
  unfold qualityReference
  rw [h1]
  show (parse 0 (ts ++ comma :: (ts' ++ close :: rest)) >>= _) = _
  rw [h2]
  show (if comma.text = some (js ",") then _ else _) = _
  rw [if_pos (reads_text.1 hcomma), h3]
  show (take ")" (close :: rest) >>= _) = _
  rw [h4]
  show (qualityNode a (some second) >>= _) = _
  rw [hnode]
  rfl

theorem functionCall_complete (hparse : Complete parse sub)
    (hbegins : ∀ p ts a, sub p ts a → Begins ts) {opening close : Token} {name : JsString}
    {ts : List Token} {args : List Node × List (JsString × JsString)} (hname : name ∈ functions)
    (hopen : Reads true opening "(") (h : ArgumentList true sub ts args)
    (hclose : Reads true close ")")
    (hquoted : NoQuotedClose (.symbol name :: opening :: (ts ++ [close]))) (rest : List Token) :
    functionCall parse name (opening :: (ts ++ close :: rest))
      = .ok ((.call name args.1, args.2), rest) := by
  have h1 := take_reads hopen (ts ++ close :: rest)
  have hpart := hquoted.of_eq [.symbol name, opening] [close] rfl
  have hfuel : ts.length < (ts ++ close :: rest).length := by simp
  have h2 : arguments parse _ (ts ++ close :: rest) = .ok (args, close :: rest) :=
    arguments_complete hparse h hpart hclose hfuel
  have h3 := take_reads hclose rest
  have hfirst : (ts ++ close :: rest).head?.bind Token.text ≠ some (js ")") := by
    obtain ⟨b, more, rfl, hsymbol⟩ := h.begins hbegins
    intro htext
    rcases reads_text.2 (show b.text = some (js ")") from htext) with hb | ⟨-, hb⟩
    · exact hsymbol hb
    · rw [hb] at hquoted
      exact hquoted [] name opening _ hname rfl
  unfold functionCall
  rw [h1]
  show (if (ts ++ close :: rest).head?.bind Token.text = some (js ")") then _ else _) = _
  rw [if_neg hfirst, h2]
  show (take ")" (close :: rest) >>= _) = _
  rw [h3]
  rfl

theorem operand_tag (rest : List Token) :
    operand parse (.symbol (js "tag") :: rest) = tagReference rest := by
  simp [operand]

theorem operand_quality (rest : List Token) :
    operand parse (.symbol (js "quality") :: rest) = qualityReference parse rest := by
  simp [operand]

theorem operand_call {name : JsString} (hname : name ∈ functions) (rest : List Token) :
    operand parse (.symbol name :: rest) = functionCall parse name rest := by
  have hwords : ∀ name ∈ functions, name ∉ ["!", "+", "-"].map js ∧ name ≠ js "(" ∧
      name ≠ js "true" ∧ name ≠ js "false" ∧ name ≠ js "null" ∧ name ≠ js "tag" ∧
      name ≠ js "quality" := by simp [functions]
  obtain ⟨h1, h2, h3, h4, h5, h6, h7⟩ := hwords name hname
  rw [operand, if_neg h1, if_neg h2, if_neg h3, if_neg h4, if_neg h5, if_neg h6, if_neg h7,
    if_pos hname]

theorem operand_closed (hparse : Complete parse sub) (hbegins : ∀ p ts a, sub p ts a → Begins ts)
    {ts : List Token} {a : Parsed} (h : Closed true sub ts a) (hquoted : NoQuotedClose ts)
    (rest : List Token) : operand parse (ts ++ rest) = .ok (a, rest) := by
  cases h with
  | number text => rfl
  | string value => rfl
  | yes => rfl
  | no => rfl
  | null => rfl
  | @paren ts close a h hclose =>
    have hpart : NoQuotedClose ts := hquoted.of_eq [.symbol (js "(")] [close] rfl
    have h1 := hparse 0 ts a (close :: rest) ⟨h, hpart⟩
      (stops_of_reads punctuation_level.2.1 hclose)
    have h2 := take_reads hclose rest
    rw [List.cons_append, List.append_assoc, operand, if_neg (by simp), if_pos rfl]
    show (parse 0 (ts ++ close :: rest) >>= _) = _
    rw [h1]
    show (take ")" (close :: rest) >>= _) = _
    rw [h2]
    rfl
  | tag hopen hcomma hclose hc ht =>
    exact (operand_tag _).trans (tagReference_complete hopen hcomma hclose hc ht rest)
  | @qualityTag opening close ts connection tag refs hopen h hclose =>
    have hpart : NoQuotedClose ts := hquoted.of_eq [.symbol (js "quality"), opening] [close] rfl
    rw [List.cons_append, operand_quality, List.cons_append, List.append_assoc]
    refine qualityOne_complete hparse hopen h hpart hclose ?_ rest
    simp [qualityNode]
  | @qualityNames opening comma close ts ts' connection tag refs refs' hopen h hcomma h' hclose
      hc ht =>
    have hpart : NoQuotedClose ts :=
      hquoted.of_eq [.symbol (js "quality"), opening] (comma :: (ts' ++ [close])) (by simp)
    have hpart' : NoQuotedClose ts' :=
      hquoted.of_eq (.symbol (js "quality") :: opening :: (ts ++ [comma])) [close] (by simp)
    rw [List.cons_append, operand_quality, List.cons_append, List.append_assoc, List.cons_append,
      List.append_assoc]
    refine qualityTwo_complete hparse hopen h hpart hcomma h' hpart' hclose ?_ rest
    simp [qualityNode, hc, ht]
  | @qualitySecond opening comma close ts ts' connection tag refs second hwide hopen h hcomma h'
      hclose =>
    have hpart : NoQuotedClose ts :=
      hquoted.of_eq [.symbol (js "quality"), opening] (comma :: (ts' ++ [close])) (by simp)
    have hpart' : NoQuotedClose ts' :=
      hquoted.of_eq (.symbol (js "quality") :: opening :: (ts ++ [comma])) [close] (by simp)
    rw [List.cons_append, operand_quality, List.cons_append, List.append_assoc, List.cons_append,
      List.append_assoc]
    refine qualityTwo_complete hparse hopen h hpart hcomma h' hpart' hclose ?_ rest
    simp [qualityNode]
  | call hname hopen h hclose =>
    rw [List.cons_append, operand_call hname, List.cons_append, List.append_assoc]
    exact functionCall_complete hparse hbegins hname hopen h hclose hquoted rest

theorem operand_signed (hparse : Complete parse sub) {ts : List Token} {a : Parsed}
    (h : Signed sub ts a) (hquoted : NoQuotedClose ts) {rest : List Token}
    (hstop : operators.Stops 7 rest) : operand parse (ts ++ rest) = .ok (a, rest) := by
  cases h with
  | @mk op ts a hop h =>
    have hpart : NoQuotedClose ts := hquoted.of_eq [.symbol op] [] (by simp)
    have h1 := hparse 7 ts a rest ⟨h, hpart⟩ hstop
    rw [List.cons_append, operand, if_pos hop]
    show (parse 7 (ts ++ rest) >>= _) = _
    rw [h1]
    rfl

end

theorem derives_begins (n : Nat) {p : Nat} {ts : List Token} {a : Parsed}
    (h : Derives true n p ts a) : Begins ts := by
  induction n generalizing p ts a with
  | zero => cases h
  | succ n ih =>
    refine Operators.Chain.ind (P := fun ts _ => Begins ts) h (fun _ _ hclosed => hclosed.begins)
      (fun _ _ hsigned => ?_) (fun _ _ _ hright => ih hright)
      fun _ _ _ _ _ _ _ hl _ => hl.append _
    cases hsigned with
    | @mk op ts a hop =>
      have hsign : ∀ op ∈ ["!", "+", "-"].map js, op ≠ js ")" := by simp
      exact ⟨_, _, rfl, fun heq => hsign op hop (Token.symbol.inj heq)⟩

/-- **The reader returns every text of the wider grammar** without a quoted closing parenthesis. -/
theorem expression_complete (n : Nat) : Complete (expression n) (Derives true n) := by
  induction n with
  | zero =>
    intro p ts a rest h
    cases h.1
  | succ n ih =>
    intro p ts a rest h hstop
    obtain ⟨hchain, hquoted⟩ := h
    have hrestricted := Operators.Chain.restrict (G := NoQuotedClose)
      (fun ls t rs hG => ⟨hG.of_eq [] (t :: rs) rfl, hG.of_eq (ls ++ [t]) [] (by simp)⟩)
      hchain hquoted
    rw [grammarOperators_true] at hrestricted
    rw [expression]
    exact Operators.operandChain_climb
      (fun ts a rest hc => operand_closed ih (fun _ _ _ h => derives_begins n h) hc.1 hc.2 rest)
      (fun ts a rest hs hstop => operand_signed ih hs.1 hs.2 hstop) ih hrestricted hstop

/-! ## References -/

section
variable {wide : Bool} {sub : Reading}

theorem ArgumentList.refs_eq (hsub : ∀ p ts a, sub p ts a → a.2 = a.1.refs) {ts : List Token}
    {args : List Node × List (JsString × JsString)} (h : ArgumentList wide sub ts args) :
    args.2 = Node.refsAll args.1 := by
  induction h with
  | one h => simp [Node.refsAll, hsub _ _ _ h]
  | more h _ _ ih => simp [Node.refsAll, hsub _ _ _ h, ih]

theorem Closed.refs_eq (hsub : ∀ p ts a, sub p ts a → a.2 = a.1.refs) {ts : List Token}
    {a : Parsed} (h : Closed false sub ts a) : a.2 = a.1.refs := by
  cases h with
  | number text => rfl
  | string value => rfl
  | yes => rfl
  | no => rfl
  | null => rfl
  | paren h => exact hsub _ _ _ h
  | tag => rfl
  | qualityTag _ h =>
    have htag := hsub _ _ _ h
    exact htag
  | qualityNames _ h _ h' =>
    have hfirst := hsub _ _ _ h
    have hsecond := hsub _ _ _ h'
    dsimp only [Node.refs] at hfirst hsecond ⊢
    rw [hfirst, hsecond]
    rfl
  | qualitySecond hwide => cases hwide
  | call _ _ h => exact h.refs_eq hsub

theorem ArgumentList.refs_subset (hsub : ∀ p ts a, sub p ts a → a.1.refs ⊆ a.2)
    {ts : List Token} {args : List Node × List (JsString × JsString)}
    (h : ArgumentList wide sub ts args) : Node.refsAll args.1 ⊆ args.2 := by
  induction h with
  | one h => simpa [Node.refsAll] using hsub _ _ _ h
  | more h _ _ ih =>
    intro ref href
    rcases List.mem_append.1 href with hfirst | hothers
    · exact List.mem_append_left _ (hsub _ _ _ h hfirst)
    · exact List.mem_append_right _ (ih hothers)

theorem Closed.refs_subset (hsub : ∀ p ts a, sub p ts a → a.1.refs ⊆ a.2) {ts : List Token}
    {a : Parsed} (h : Closed wide sub ts a) : a.1.refs ⊆ a.2 := by
  cases h with
  | number text => exact List.Subset.refl _
  | string value => exact List.Subset.refl _
  | yes => exact List.Subset.refl _
  | no => exact List.Subset.refl _
  | null => exact List.Subset.refl _
  | paren h => exact hsub _ _ _ h
  | tag => exact List.Subset.refl _
  | qualityTag _ h =>
    have htag := hsub _ _ _ h
    exact htag
  | qualityNames => exact List.subset_append_right _ _
  | qualitySecond _ _ h => exact List.subset_append_of_subset_left _ (hsub _ _ _ h)
  | call _ _ h => exact h.refs_subset hsub

end

/-- The references of the grammar are those of the tree. -/
theorem derives_refs_eq (n : Nat) {p : Nat} {ts : List Token} {a : Parsed}
    (h : Derives false n p ts a) : a.2 = a.1.refs := by
  induction n generalizing p ts a with
  | zero => cases h
  | succ n ih =>
    refine Operators.Chain.ind (P := fun _ a => a.2 = a.1.refs) h
      (fun _ _ hclosed => hclosed.refs_eq fun _ _ _ h => ih h) (fun _ _ hsigned => ?_)
      (fun _ _ _ hright => ih hright) fun _ _ _ _ a b _ hl hr => ?_
    · cases hsigned with
      | mk hop h =>
        have harg := ih h
        exact harg
    · show a.2 ++ b.2 = a.1.refs ++ b.1.refs
      rw [hl, hr]

/-- The wider grammar has all references of the tree. -/
theorem derives_refs_subset (n : Nat) {p : Nat} {ts : List Token} {a : Parsed}
    (h : Derives true n p ts a) : a.1.refs ⊆ a.2 := by
  induction n generalizing p ts a with
  | zero => cases h
  | succ n ih =>
    refine Operators.Chain.ind (P := fun _ a => a.1.refs ⊆ a.2) h
      (fun _ _ hclosed => hclosed.refs_subset fun _ _ _ h => ih h) (fun _ _ hsigned => ?_)
      (fun _ _ _ hright => ih hright) fun _ _ _ _ a b _ hl hr => ?_
    · cases hsigned with
      | mk hop h =>
        have harg := ih h
        exact harg
    · intro ref href
      rcases List.mem_append.1 (show ref ∈ a.1.refs ++ b.1.refs from href) with hmem | hmem
      · exact List.mem_append_left _ (hl hmem)
      · exact List.mem_append_right _ (hr hmem)

theorem mem_distinct {refs : List (JsString × JsString)} {ref : JsString × JsString} :
    ref ∈ distinct refs ↔ ref ∈ refs := by
  have hfold : ∀ keys : List (JsString × JsString),
      ref ∈ refs.foldl (fun keys ref => if ref ∈ keys then keys else keys ++ [ref]) keys ↔
        ref ∈ keys ∨ ref ∈ refs := by
    induction refs with
    | nil => simp
    | cons first refs ih =>
      intro keys
      rw [List.foldl_cons, ih]
      by_cases hmem : first ∈ keys
      · rw [if_pos hmem, List.mem_cons]
        constructor
        · exact fun h => h.imp_right .inr
        · rintro (h | rfl | h)
          · exact .inl h
          · exact .inl hmem
          · exact .inr h
      · rw [if_neg hmem, List.mem_append, List.mem_singleton, List.mem_cons, or_assoc]
  simpa [distinct] using hfold []

/-! ## Evaluation -/

section
variable {V : Type} (values : Values V) (access : List Access → Access → Except String V)

mutual

/-- **The evaluation of a tree** accesses its references only. -/
theorem run_accesses (node : Node) (log : List Access) :
    ∀ x ∈ (node.run values access log).1, x ∈ log ∨ x.pair ∈ node.refs := by
  cases node with
  | literal value =>
    intro x hx
    rw [Node.run] at hx
    exact .inl hx
  | tag connection name =>
    intro x hx
    rw [Node.run] at hx
    rcases List.mem_append.1 hx with hx | hx
    · exact .inl hx
    · rw [List.mem_singleton.1 hx]
      exact .inr List.mem_cons_self
  | quality connection name =>
    intro x hx
    rw [Node.run] at hx
    rcases List.mem_append.1 hx with hx | hx
    · exact .inl hx
    · rw [List.mem_singleton.1 hx]
      exact .inr List.mem_cons_self
  | unary op arg =>
    intro x hx
    have harg := run_accesses arg log
    rw [Node.run] at hx
    rw [Node.refs]
    cases hrun : arg.run values access log with
    | mk log' result =>
      rw [hrun] at hx harg
      cases result with
      | error e => exact harg x hx
      | ok a => exact harg x hx
  | binary op left right =>
    intro x hx
    have hleft := run_accesses left log
    rw [Node.run] at hx
    rw [Node.refs, List.mem_append]
    cases hrun : left.run values access log with
    | mk log' result =>
      rw [hrun] at hx hleft
      have hleft' : x ∈ log' → x ∈ log ∨ x.pair ∈ left.refs ∨ x.pair ∈ right.refs :=
        fun hmem => (hleft x hmem).imp_right .inl
      cases result with
      | error e => exact hleft' hx
      | ok a =>
        dsimp only at hx
        split at hx
        · exact hleft' hx
        split at hx
        · exact hleft' hx
        have hright := run_accesses right log'
        cases hrun' : right.run values access log' with
        | mk log'' result' =>
          rw [hrun'] at hx hright
          have hboth : x ∈ log'' → x ∈ log ∨ x.pair ∈ left.refs ∨ x.pair ∈ right.refs := by
            intro hmem
            rcases hright x hmem with hmem | hmem
            · exact hleft' hmem
            · exact .inr (.inr hmem)
          cases result' with
          | error e => exact hboth hx
          | ok b =>
            dsimp only at hx
            split at hx
            · exact hboth hx
            · exact hboth hx
  | call name args =>
    intro x hx
    have hargs := runAll_accesses args log
    rw [Node.run] at hx
    rw [Node.refs]
    cases hrun : Node.runAll values access args log with
    | mk log' result =>
      rw [hrun] at hx hargs
      cases result with
      | error e => exact hargs x hx
      | ok a => exact hargs x hx

theorem runAll_accesses (args : List Node) (log : List Access) :
    ∀ x ∈ (Node.runAll values access args log).1, x ∈ log ∨ x.pair ∈ Node.refsAll args := by
  cases args with
  | nil =>
    intro x hx
    rw [Node.runAll] at hx
    exact .inl hx
  | cons arg args =>
    intro x hx
    have harg := run_accesses arg log
    rw [Node.runAll] at hx
    rw [Node.refsAll, List.mem_append]
    cases hrun : arg.run values access log with
    | mk log' result =>
      rw [hrun] at hx harg
      have hfirst : x ∈ log' → x ∈ log ∨ x.pair ∈ arg.refs ∨ x.pair ∈ Node.refsAll args :=
        fun hmem => (harg x hmem).imp_right .inl
      cases result with
      | error e => exact hfirst hx
      | ok a =>
        have hothers := runAll_accesses args log'
        dsimp only at hx
        cases hrun' : Node.runAll values access args log' with
        | mk log'' result' =>
          rw [hrun'] at hx hothers
          have hboth : x ∈ log'' → x ∈ log ∨ x.pair ∈ arg.refs ∨ x.pair ∈ Node.refsAll args := by
            intro hmem
            rcases hothers x hmem with hmem | hmem
            · exact hfirst hmem
            · exact .inr (.inr hmem)
          cases result' with
          | error e => exact hboth hx
          | ok b => exact hboth hx

end

theorem evaluate_accesses (tree : Node) :
    ∀ x ∈ (evaluate values access tree).1, x.pair ∈ tree.refs := by
  intro x hx
  have hrun := run_accesses values access tree []
  unfold evaluate at hx
  cases htree : tree.run values access [] with
  | mk log result =>
    rw [htree] at hx hrun
    have hmem : x ∈ log := by
      cases result with
      | error e => exact hx
      | ok value => exact hx
    exact (hrun x hmem).resolve_left List.not_mem_nil

end

/-! ## The compiler -/

/-- **What the compiler accepts**: the wider grammar without quoted closing parentheses. -/
theorem compile_iff {source : JsString} {tree : Node} {deps : List (JsString × JsString)} :
    compile source = .ok (tree, deps) ↔ ∃ tokens refs, tokensOf source = .ok tokens ∧
      Derives true 64 0 tokens (tree, refs) ∧ NoQuotedClose tokens ∧ deps = distinct refs := by
  unfold compile
  constructor
  · intro h
    obtain ⟨tokens, htokens, h1⟩ := bind_ok.1 h
    obtain ⟨⟨⟨tree', refs⟩, rest⟩, hread, h2⟩ := bind_ok.1 h1
    dsimp only at h2
    split at h2
    · rename_i hrest
      subst hrest
      cases h2
      obtain ⟨used, rfl, ⟨hderives, hshut⟩, -⟩ := expression_sound 64 _ _ _ _ (by omega) hread
      rw [List.append_nil] at htokens
      exact ⟨used, refs, htokens, hderives, hshut.noQuotedClose, rfl⟩
    · cases h2
  · rintro ⟨tokens, refs, htokens, hderives, hquoted, rfl⟩
    have hread := expression_complete 64 0 tokens (tree, refs) [] ⟨hderives, hquoted⟩
      (by simp [Operators.Stops])
    rw [List.append_nil] at hread
    rw [htokens]
    show (expression 64 0 tokens >>= _) = _
    rw [hread]
    rfl

/-- **The compiler is right on a text** if and only if the text is in the grammar exactly if it is
in the wider one and has no quoted closing parenthesis after a function name. -/
theorem compiles_right_iff (source : JsString) : CompilesRight source ↔ ReadAlike source := by
  constructor
  · intro h tokens htokens
    constructor
    · rintro ⟨⟨tree, refs⟩, hderives⟩
      have hcompile := (h.grammar tree _).2 ⟨⟨tokens, refs, htokens, hderives⟩, rfl⟩
      obtain ⟨tokens', refs', htokens', hwide, hquoted, -⟩ := compile_iff.1 hcompile
      obtain rfl : tokens = tokens' := Except.ok.inj (htokens.symm.trans htokens')
      exact ⟨⟨_, hwide⟩, hquoted⟩
    · rintro ⟨⟨⟨tree, refs⟩, hwide⟩, hquoted⟩
      have hcompile := compile_iff.2 ⟨tokens, refs, htokens, hwide, hquoted, rfl⟩
      obtain ⟨⟨tokens', refs', htokens', hderives⟩, -⟩ := (h.grammar _ _).1 hcompile
      obtain rfl : tokens = tokens' := Except.ok.inj (htokens.symm.trans htokens')
      exact ⟨_, hderives⟩
  · intro h
    refine ⟨fun tree deps => ⟨fun hcompile => ?_, ?_⟩, fun tree deps hcompile V values access => ?_⟩
    · obtain ⟨tokens, refs, htokens, hwide, hquoted, hdeps⟩ := compile_iff.1 hcompile
      obtain ⟨⟨tree', refs'⟩, hderives⟩ := (h tokens htokens).2 ⟨⟨_, hwide⟩, hquoted⟩
      -- the derivation of the grammar is one of the wider grammar, which gives one tree
      have hsame := compile_iff.2 ⟨tokens, refs', htokens, hderives.wider, hquoted, rfl⟩
      rw [hcompile, Except.ok.injEq, Prod.mk.injEq] at hsame
      obtain ⟨rfl, rfl⟩ := hsame
      refine ⟨⟨tokens, refs', htokens, hderives⟩, ?_⟩
      rw [← derives_refs_eq 64 hderives]
    · rintro ⟨⟨tokens, refs, htokens, hderives⟩, rfl⟩
      have hquoted := ((h tokens htokens).1 ⟨_, hderives⟩).2
      refine compile_iff.2 ⟨tokens, refs, htokens, hderives.wider, hquoted, ?_⟩
      rw [← derives_refs_eq 64 hderives]
    · intro x hx
      obtain ⟨tokens, refs, -, hwide, -, rfl⟩ := compile_iff.1 hcompile
      have hmem := evaluate_accesses values access tree x hx
      exact mem_distinct.2 (derives_refs_subset 64 hwide hmem)

/-- `min(")")` is in the grammar. -/
theorem quoted_close_generated :
    Generated (js "min(\")\")") (.call (js "min") [.literal (.string (js ")"))]) := by
  have hmin : js "min" ∈ functions := by simp [functions]
  have harg : Derives false 63 0 [.string (js ")")] (.literal (.string (js ")")), []) :=
    Operators.Chain.lower (.closed (.string _)) (by decide) le_rfl
  have hcall : Closed false (Derives false 63)
      [.symbol (js "min"), .symbol (js "("), .string (js ")"), .symbol (js ")")]
      (.call (js "min") [.literal (.string (js ")"))], []) :=
    .call hmin (.inl rfl) (.one harg) (.inl rfl)
  exact ⟨_, [], by decide +kernel, Operators.Chain.lower (.closed hcall) (by decide) le_rfl⟩

theorem quoted_close_rejected : ¬ ∀ source, CompilesRight source := by
  intro h
  have hcompile := ((h _).grammar _ _).2 ⟨quoted_close_generated, rfl⟩
  have hrejected : (compile (js "min(\")\")")).isOk = false := by decide +kernel
  rw [hcompile] at hrejected
  cases hrejected

end OpcBridge.Hmi
