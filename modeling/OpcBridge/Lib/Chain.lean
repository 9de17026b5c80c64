import Mathlib.Data.List.Basic

/-!
# Chains of operators

A hand-written parser reads `a op b op c` from left to right and computes while it reads (`chain`).
A reader is right for a grammar, given as a relation between texts and values, if it reads every
text of the grammar that is followed by a text at which it has to stop, and reads nothing else
(`Reads`). A chain of operands is right for the left-associative chains of the operands' grammar
(`chain_reads`).

A value is `none` where an operation is undefined; the reader then fails. White space is skipped
before an operator, and whether it is skipped at the end of a text is left open.
-/

namespace Lib

variable {ε α : Type}

/-- A reader gives a value and the rest of the text, or an error. -/
abbrev Reader (ε α : Type) := List Char → Except ε (α × List Char)

section
variable (space : Char → Bool) (operand : Reader ε α)
  (op : Char → Option (α → α → List Char → Except ε α))

/-- The operators and operands after the first. An operation may look at the rest of the text. -/
def chainLoop : Nat → α → Reader ε α
  | 0, v, s => .ok (v, s.dropWhile space)
  | n + 1, v, s =>
    match s.dropWhile space with
    | [] => .ok (v, [])
    | c :: cs =>
      match op c with
      | none => .ok (v, c :: cs)
      | some f => do
        let (w, rest) ← operand cs
        let x ← f v w rest
        chainLoop n x rest

/-- The text bounds the number of operators. -/
def chain : Reader ε α := fun s => do
  let (v, rest) ← operand s
  chainLoop space operand op s.length v rest

end

/-! ## Grammars -/

/-- The texts with the values of their chains. -/
inductive Chained (space : Char → Bool) (op : Char → Option (α → α → Option α))
    (R : List Char → Option α → Prop) : List Char → Option α → Prop
  | one {u : List Char} {o : Option α} : R u o → Chained space op R u o
  | more {u w u' : List Char} {c : Char} {f : α → α → Option α} {o o' : Option α} :
      Chained space op R u o → (∀ x ∈ w, space x = true) → op c = some f → R u' o' →
      Chained space op R (u ++ (w ++ c :: u')) (o.bind fun x => o'.bind fun y => f x y)

/-- The reader is right for the grammar on texts shorter than `n`. -/
structure Reads (space : Char → Bool) (n : Nat) (p : Reader ε α) (stop : List Char → Prop)
    (R : List Char → Option α → Prop) : Prop where
  complete : ∀ {u r : List Char} {o : Option α}, R u o → stop r → (u ++ r).length < n →
    ∃ r', r'.dropWhile space = r.dropWhile space ∧
      (p (u ++ r)).toOption = o.map fun v => (v, r')
  sound : ∀ {s r' : List Char} {v : α}, p s = .ok (v, r') →
    ∃ u r, s = u ++ r ∧ r'.dropWhile space = r.dropWhile space ∧ R u (some v)

/-- The operations of a reader and of a grammar. -/
def SameOps (op : Char → Option (α → α → List Char → Except ε α))
    (spec : Char → Option (α → α → Option α)) : Prop :=
  ∀ c, (op c).map (fun f x y rest => (f x y rest).toOption) =
    (spec c).map fun f x y (_ : List Char) => f x y

section
variable {space : Char → Bool} {operand : Reader ε α} {n : Nat}
  {op : Char → Option (α → α → List Char → Except ε α)} {spec : Char → Option (α → α → Option α)}
  {stop stop' : List Char → Prop} {R : List Char → Option α → Prop}

theorem SameOps.eq_none (h : SameOps op spec) {c : Char} (hc : spec c = none) : op c = none := by
  have heq := h c
  rw [hc] at heq
  simpa using heq

theorem SameOps.exists_op (h : SameOps op spec) {c : Char} {f : α → α → Option α}
    (hc : spec c = some f) :
    ∃ g, op c = some g ∧ ∀ x y rest, (g x y rest).toOption = f x y := by
  have heq := h c
  rw [hc] at heq
  obtain ⟨g, hg, hfun⟩ := Option.map_eq_some_iff.1 heq
  exact ⟨g, hg, fun x y rest => congrFun (congrFun (congrFun hfun x) y) rest⟩

theorem SameOps.of_op (h : SameOps op spec) {c : Char} {g : α → α → List Char → Except ε α}
    (hc : op c = some g) :
    ∃ f, spec c = some f ∧ ∀ x y rest, (g x y rest).toOption = f x y := by
  cases hs : spec c with
  | none =>
    rw [h.eq_none hs] at hc
    cases hc
  | some f =>
    obtain ⟨g', hg', hfun⟩ := h.exists_op hs
    rw [hc] at hg'
    obtain rfl := Option.some.inj hg'
    exact ⟨f, rfl, hfun⟩

theorem toOption_bind {β γ : Type} (x : Except ε β) (f : β → Except ε γ) :
    (x >>= f).toOption = x.toOption.bind fun a => (f a).toOption := by
  cases x with
  | error e => rfl
  | ok a => rfl

theorem toOption_map {β γ : Type} (f : β → γ) (x : Except ε β) :
    (x.map f).toOption = x.toOption.map f := by
  cases x with
  | error e => rfl
  | ok a => rfl

theorem ok_of_map {β γ : Type} {f : β → γ} {x : Except ε β} {b : γ} (h : x.map f = .ok b) :
    ∃ a, x = .ok a ∧ f a = b := by
  cases x with
  | error e => cases h
  | ok a => exact ⟨a, rfl, Except.ok.inj h⟩

theorem ok_of_toOption {β : Type} {x : Except ε β} {a : β} (h : x.toOption = some a) :
    x = .ok a := by
  cases x with
  | error e => cases h
  | ok b =>
    obtain rfl := Option.some.inj h
    rfl

/-- The blanks before an operator. -/
theorem dropWhile_blanks {w s : List Char} {c : Char} (hw : ∀ x ∈ w, space x = true)
    (hc : space c = false) : (w ++ c :: s).dropWhile space = c :: s := by
  rw [List.dropWhile_append_of_pos hw, List.dropWhile_cons_of_neg (by simp [hc])]

theorem toOption_chain (s : List Char) :
    (chain space operand op s).toOption = (operand s).toOption.bind fun x =>
      (chainLoop space operand op s.length x.1 x.2).toOption := toOption_bind _ _

theorem Reads.congr {R' : List Char → Option α → Prop} (h : Reads space n operand stop R)
    (hR : ∀ u o, R' u o ↔ R u o) : Reads space n operand stop R' where
  complete hu hr hlen := h.complete ((hR _ _).1 hu) hr hlen
  sound hs := by
    obtain ⟨u, r, htext, hrest, hu⟩ := h.sound hs
    exact ⟨u, r, htext, hrest, (hR _ _).2 hu⟩

/-- A text that starts like an operand. -/
theorem Chained.start {P : List Char → Prop} (hP : ∀ u v, P u → P (u ++ v))
    (hR : ∀ u o, R u o → P u) {u : List Char} {o : Option α} (h : Chained space spec R u o) :
    P u := by
  induction h with
  | one hu => exact hR _ _ hu
  | more _ _ _ _ ih => exact hP _ _ ih

/-! ## Completeness -/

/-- One more operator. -/
theorem chainLoop_more (hop : SameOps op spec) (hoperand : Reads space n operand stop R)
    {c : Char} {f : α → α → Option α} (hc : spec c = some f) {s u r : List Char} {o : Option α}
    (hs : s.dropWhile space = c :: (u ++ r)) (hu : R u o) (hr : stop r)
    (hlen : (u ++ r).length < n) :
    ∃ r', r'.dropWhile space = r.dropWhile space ∧ ∀ m v,
      (chainLoop space operand op (m + 1) v s).toOption =
        (o.bind fun y => f v y).bind fun x => (chainLoop space operand op m x r').toOption := by
  obtain ⟨g, hg, hfun⟩ := hop.exists_op hc
  obtain ⟨r', hr', hread⟩ := hoperand.complete hu hr hlen
  refine ⟨r', hr', fun m v => ?_⟩
  rw [chainLoop, hs]
  dsimp only
  rw [hg]
  dsimp only
  rw [toOption_bind, hread]
  cases o with
  | none => rfl
  | some y =>
    show ((g v y r' >>= _ : Except ε _)).toOption = _
    rw [toOption_bind, hfun]
    rfl

/-- The chain reads a text of the grammar up to the state of its loop. -/
theorem chain_state (hop : SameOps op spec) (hoperand : Reads space n operand stop R)
    (hstop : ∀ c f w s, spec c = some f → (∀ x ∈ w, space x = true) → stop (w ++ c :: s))
    (hspace : ∀ c f, spec c = some f → space c = false) {u : List Char} {o : Option α}
    (h : Chained space spec R u o) {r : List Char} (hr : stop r) (hlen : (u ++ r).length < n) :
    ∃ k r', k ≤ u.length ∧ r'.dropWhile space = r.dropWhile space ∧ ∀ m,
      ((operand (u ++ r)).toOption.bind fun x =>
        (chainLoop space operand op (k + m) x.1 x.2).toOption) =
      o.bind fun v => (chainLoop space operand op m v r').toOption := by
  induction h generalizing r with
  | one hu =>
    obtain ⟨r', hr', hread⟩ := hoperand.complete hu hr hlen
    refine ⟨0, r', Nat.zero_le _, hr', fun m => ?_⟩
    rw [hread, Option.bind_map, Nat.zero_add]
    rfl
  | @more u w u' c f o o' hu hw hc hu' ih =>
    have htext : (u ++ (w ++ c :: u')) ++ r = u ++ (w ++ c :: (u' ++ r)) := by simp
    rw [htext] at hlen ⊢
    obtain ⟨k, s, hk, hs, hstate⟩ := ih (hstop c f w (u' ++ r) hc hw) hlen
    rw [dropWhile_blanks hw (hspace c f hc)] at hs
    have hlen' : (u' ++ r).length < n := by
      simp only [List.length_append, List.length_cons] at hlen ⊢
      omega
    obtain ⟨r', hr', hloop⟩ := chainLoop_more hop hoperand hc hs hu' hr hlen'
    refine ⟨k + 1, r', ?_, hr', fun m => ?_⟩
    · simp only [List.length_append, List.length_cons]
      omega
    · rw [show k + 1 + m = k + (m + 1) by omega, hstate, Option.bind_assoc]
      exact Option.bind_congr fun v _ => hloop m v

/-- The loop ends where no operator follows. -/
theorem chainLoop_stop (operand : Reader ε α) (hop : SameOps op spec) {s : List Char}
    (hs : ∀ c ∈ (s.dropWhile space).head?, spec c = none) (m : Nat) (v : α) :
    chainLoop space operand op m v s = .ok (v, s.dropWhile space) := by
  cases m with
  | zero => rfl
  | succ m =>
    rw [chainLoop]
    cases hd : s.dropWhile space with
    | nil => rfl
    | cons c cs =>
      have hc : op c = none := by
        refine hop.eq_none (hs c ?_)
        rw [hd]
        rfl
      dsimp only
      rw [hc]

/-! ## Soundness -/

theorem dropWhile_idem (p : Char → Bool) (s : List Char) :
    (s.dropWhile p).dropWhile p = s.dropWhile p := by
  cases hd : s.dropWhile p with
  | nil => rfl
  | cons c cs =>
    have hc : p c = false := by
      have hhead := List.head?_dropWhile_not p s
      rw [hd] at hhead
      simpa using hhead
    rw [List.dropWhile_cons_of_neg (by simp [hc])]

/-- What the loop adds to a text is a chain again. -/
theorem chainLoop_sound (hop : SameOps op spec) (hoperand : Reads space n operand stop R)
    {m : Nat} {v x : α} {s t u r : List Char}
    (h : chainLoop space operand op m v s = .ok (x, t))
    (hs : s.dropWhile space = r.dropWhile space) (hu : Chained space spec R u (some v)) :
    ∃ u' r', u ++ r = u' ++ r' ∧ t.dropWhile space = r'.dropWhile space ∧
      Chained space spec R u' (some x) := by
  induction m generalizing v s u r with
  | zero =>
    obtain ⟨rfl, rfl⟩ := Prod.mk.inj (Except.ok.inj h)
    exact ⟨u, r, rfl, by rw [dropWhile_idem, hs], hu⟩
  | succ m ih =>
    rw [chainLoop] at h
    split at h
    · rename_i hd
      obtain ⟨rfl, rfl⟩ := Prod.mk.inj (Except.ok.inj h)
      exact ⟨u, r, rfl, by rw [← hs, hd]; rfl, hu⟩
    · rename_i c cs hd
      split at h
      · obtain ⟨rfl, rfl⟩ := Prod.mk.inj (Except.ok.inj h)
        exact ⟨u, r, rfl, by rw [← hs, ← hd, dropWhile_idem], hu⟩
      · rename_i g hg
        obtain ⟨f, hf, hfun⟩ := hop.of_op hg
        have hstep := congrArg Except.toOption h
        rw [toOption_bind] at hstep
        obtain ⟨⟨y, rest⟩, hread, hstep⟩ := Option.bind_eq_some_iff.1 hstep
        rw [toOption_bind] at hstep
        obtain ⟨z, hz, hloop⟩ := Option.bind_eq_some_iff.1 hstep
        obtain ⟨u', r', hcs, hrest, hu'⟩ := hoperand.sound (ok_of_toOption hread)
        have hblank : ∀ b ∈ r.takeWhile space, space b = true := fun b hb =>
          List.all_eq_true.1 List.all_takeWhile b hb
        have hsplit : r = r.takeWhile space ++ c :: (u' ++ r') := by
          conv_lhs => rw [← List.takeWhile_append_dropWhile (p := space) (l := r)]
          rw [← hs, hd, hcs]
        have hmore := Chained.more hu hblank hf hu'
        have hvalue : ((some v).bind fun x => (some y).bind fun y => f x y) = some z := by
          show f v y = _
          rw [← hfun v y rest, hz]
        rw [hvalue] at hmore
        obtain ⟨u₂, r₂, htext, ht, hu₂⟩ := ih (ok_of_toOption hloop) hrest hmore
        refine ⟨u₂, r₂, ?_, ht, hu₂⟩
        rw [← htext]
        conv_lhs => rw [hsplit]
        simp

/-! ## Chains -/

/-- **Chains.** -/
theorem chain_reads (hop : SameOps op spec) (hoperand : Reads space n operand stop R)
    (hstop : ∀ c f w s, spec c = some f → (∀ x ∈ w, space x = true) → stop (w ++ c :: s))
    (hspace : ∀ c f, spec c = some f → space c = false)
    (hweak : ∀ r, stop' r → stop r)
    (hend : ∀ r, stop' r → ∀ c ∈ (r.dropWhile space).head?, spec c = none) :
    Reads space n (chain space operand op) stop' (Chained space spec R) where
  complete := by
    intro u r o hu hr hlen
    obtain ⟨k, s, hk, hs, hstate⟩ := chain_state hop hoperand hstop hspace hu (hweak r hr) hlen
    refine ⟨r.dropWhile space, dropWhile_idem _ _, ?_⟩
    obtain ⟨m, hm⟩ : ∃ m, (u ++ r).length = k + m :=
      ⟨(u ++ r).length - k, by rw [List.length_append]; omega⟩
    rw [toOption_chain, hm, hstate, ← hs]
    have hloop := chainLoop_stop operand hop (s := s) (by rw [hs]; exact hend r hr) m
    cases o with
    | none => rfl
    | some v => exact congrArg Except.toOption (hloop v)
  sound := by
    intro s r' v h
    have hread := congrArg Except.toOption h
    rw [toOption_chain] at hread
    obtain ⟨⟨x, rest⟩, hfirst, hloop⟩ := Option.bind_eq_some_iff.1 hread
    obtain ⟨u, r, htext, hrest, hu⟩ := hoperand.sound (ok_of_toOption hfirst)
    obtain ⟨u', t, htext', ht, hu'⟩ :=
      chainLoop_sound hop hoperand (ok_of_toOption hloop) hrest (.one hu)
    exact ⟨u', t, htext.trans htext', ht, hu'⟩

end

end Lib
