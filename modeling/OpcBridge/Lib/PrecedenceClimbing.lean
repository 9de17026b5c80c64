import Mathlib.Data.Nat.Init
import Mathlib.Order.Nat

/-!
# Precedence climbing

A reader of infix operators: it reads an operand and then, as long as the next token is an operator
of at least the level `min`, the operator and a right operand of the next level. The operators of
the tightest level associate to the right, the others to the left. `Chain` is the grammar of levels,
with the operands and the right operands as parameters: a closed operand may be the left operand of
every operator, a bare one has taken the tightest operators already. What the reader returns is a
chain (`climb_sound`), and it returns every chain after which no operator of its level comes
(`operandChain_climb`).
-/

namespace Lib

/-- The operators among the tokens, by level, and what they build. -/
@[ext] structure Operators (τ ε : Type) where
  level : τ → Option ℕ
  top : ℕ
  build : τ → ε → ε → ε

namespace Operators

variable {τ ε : Type} (ops : Operators τ ε)

/-- The level of the right operand. -/
def after (p : ℕ) : ℕ := if p < ops.top then p + 1 else ops.top

/-- No operator of the level `p` or a tighter one comes next. -/
def Stops (p : ℕ) (ts : List τ) : Prop := ∀ t ∈ ts.head?, ∀ q, ops.level t = some q → q < p

/-- `fuel` is the number of tokens that are left. -/
def climb (parse : ℕ → List τ → Except String (ε × List τ)) (min : ℕ) :
    ℕ → ε → List τ → Except String (ε × List τ)
  | _, a, [] => .ok (a, [])
  | fuel, a, t :: ts =>
    match ops.level t with
    | none => .ok (a, t :: ts)
    | some p =>
      if p < min then .ok (a, t :: ts)
      else match fuel with
        | 0 => .error "out of tokens"
        | fuel + 1 => do
          let (b, rest) ← parse (ops.after p) ts
          climb parse min fuel (ops.build t a b) rest

/-- The texts of a level. -/
inductive Chain (closed bare : List τ → ε → Prop) (right : ℕ → List τ → ε → Prop) :
    ℕ → List τ → ε → Prop
  | closed {ts : List τ} {a : ε} (h : closed ts a) : Chain closed bare right ops.top ts a
  | bare {ts : List τ} {a : ε} (h : bare ts a) : Chain closed bare right ops.top ts a
  | up {p : ℕ} {ts : List τ} {a : ε} (hp : p < ops.top) (h : Chain closed bare right (p + 1) ts a) :
      Chain closed bare right p ts a
  | left {p : ℕ} {ls rs : List τ} {t : τ} {a b : ε} (hp : p < ops.top)
      (hl : Chain closed bare right p ls a) (ht : ops.level t = some p)
      (hr : right (p + 1) rs b) : Chain closed bare right p (ls ++ t :: rs) (ops.build t a b)
  | tight {ls rs : List τ} {t : τ} {a b : ε} (hl : closed ls a) (ht : ops.level t = some ops.top)
      (hr : right ops.top rs b) :
      Chain closed bare right ops.top (ls ++ t :: rs) (ops.build t a b)

variable {ops} {closed bare : List τ → ε → Prop} {right : ℕ → List τ → ε → Prop}

theorem Stops.mono {p q : ℕ} {ts : List τ} (h : ops.Stops p ts) (hpq : p ≤ q) : ops.Stops q ts :=
  fun t ht l hl => lt_of_lt_of_le (h t ht l hl) hpq

theorem Chain.lower {p q : ℕ} {ts : List τ} {a : ε} (h : ops.Chain closed bare right q ts a)
    (hpq : p ≤ q) (hq : q ≤ ops.top) : ops.Chain closed bare right p ts a := by
  induction hpq using Nat.decreasingInduction with
  | self => exact h
  | of_succ k hk ih => exact .up (by omega) ih

theorem Chain.le_top {p : ℕ} {ts : List τ} {a : ε} (h : ops.Chain closed bare right p ts a) :
    p ≤ ops.top := by
  cases h with
  | closed => exact le_rfl
  | bare => exact le_rfl
  | up hp => exact hp.le
  | left hp => exact hp.le
  | tight => exact le_rfl

/-- The operands and the operators of a chain may be replaced. -/
theorem Chain.imp {ops' : Operators τ ε} {closed' bare' : List τ → ε → Prop}
    {right' : ℕ → List τ → ε → Prop} {p : ℕ} {ts : List τ} {a : ε}
    (h : ops.Chain closed bare right p ts a) (htop : ops'.top = ops.top)
    (hbuild : ops'.build = ops.build)
    (hlevel : ∀ t q, ops.level t = some q → ops'.level t = some q)
    (hclosed : ∀ ts a, closed ts a → closed' ts a) (hbare : ∀ ts a, bare ts a → bare' ts a)
    (hright : ∀ p ts a, right p ts a → right' p ts a) :
    ops'.Chain closed' bare' right' p ts a := by
  induction h with
  | closed h =>
    rw [← htop]
    exact .closed (hclosed _ _ h)
  | bare h =>
    rw [← htop]
    exact .bare (hbare _ _ h)
  | up hp _ ih => exact .up (htop ▸ hp) ih
  | left hp _ ht hr ih =>
    rw [← hbuild]
    exact .left (htop ▸ hp) ih (hlevel _ _ ht) (hright _ _ _ hr)
  | tight hl ht hr =>
    rw [← hbuild, ← htop] at *
    exact .tight (hclosed _ _ hl) (hlevel _ _ ht) (hright _ _ _ hr)

/-- Induction over the operators of a chain. -/
theorem Chain.ind {P : List τ → ε → Prop} {p : ℕ} {ts : List τ} {a : ε}
    (h : ops.Chain closed bare right p ts a) (hclosed : ∀ ts a, closed ts a → P ts a)
    (hbare : ∀ ts a, bare ts a → P ts a) (hright : ∀ p ts a, right p ts a → P ts a)
    (hbuild : ∀ t q ls rs a b, ops.level t = some q → P ls a → P rs b →
      P (ls ++ t :: rs) (ops.build t a b)) : P ts a := by
  induction h with
  | closed h => exact hclosed _ _ h
  | bare h => exact hbare _ _ h
  | up _ _ ih => exact ih
  | left _ _ ht hr ih => exact hbuild _ _ _ _ _ _ ht ih (hright _ _ _ hr)
  | tight hl ht hr => exact hbuild _ _ _ _ _ _ ht (hclosed _ _ hl) (hright _ _ _ hr)

/-- What holds of a text and of its parts may be asked of the operands. -/
theorem Chain.restrict {G : List τ → Prop} (hG : ∀ ls t rs, G (ls ++ t :: rs) → G ls ∧ G rs)
    {p : ℕ} {ts : List τ} {a : ε} (h : ops.Chain closed bare right p ts a) (hts : G ts) :
    ops.Chain (fun ts a => closed ts a ∧ G ts) (fun ts a => bare ts a ∧ G ts)
      (fun p ts a => right p ts a ∧ G ts) p ts a := by
  induction h with
  | closed h => exact .closed ⟨h, hts⟩
  | bare h => exact .bare ⟨h, hts⟩
  | up hp _ ih => exact .up hp (ih hts)
  | left hp _ ht hr ih =>
    obtain ⟨hls, hrs⟩ := hG _ _ _ hts
    exact .left hp (ih hls) ht ⟨hr, hrs⟩
  | tight hl ht hr =>
    obtain ⟨hls, hrs⟩ := hG _ _ _ hts
    exact .tight ⟨hl, hls⟩ ht ⟨hr, hrs⟩

/-! ## The reader -/

section
variable {parse : ℕ → List τ → Except String (ε × List τ)} {min : ℕ}

theorem after_le {p : ℕ} : ops.after p ≤ ops.top := by
  unfold after
  split <;> omega

/-- The reader stops where no operator of its level comes. -/
theorem climb_stop {fuel : ℕ} {a : ε} {ts : List τ} (h : ops.Stops min ts) :
    ops.climb parse min fuel a ts = .ok (a, ts) := by
  cases ts with
  | nil => simp [climb]
  | cons t ts =>
    unfold climb
    cases hlevel : ops.level t with
    | none => rfl
    | some p =>
      dsimp only
      rw [if_pos (h t rfl p hlevel)]

/-- The left operand of the loop: a closed one, or a chain that the next operator does not split. -/
def Started (ops : Operators τ ε) (closed bare : List τ → ε → Prop)
    (right : ℕ → List τ → ε → Prop) (min : ℕ) (used : List τ) (a : ε) (ts : List τ) : Prop :=
  closed used a ∨ ∃ q, min ≤ q ∧ ops.Chain closed bare right q used a ∧ ops.Stops (ops.after q) ts

theorem Started.chain {used ts : List τ} {a : ε} (hmin : min ≤ ops.top)
    (h : Started ops closed bare right min used a ts) : ops.Chain closed bare right min used a := by
  rcases h with h | ⟨q, hq, hchain, -⟩
  · exact (Chain.closed h).lower hmin le_rfl
  · exact hchain.lower hq hchain.le_top

/-- One operator more. -/
theorem Started.next {used rs ts : List τ} {t : τ} {a b : ε} {p : ℕ} (hp : p ≤ ops.top)
    (hmin : min ≤ p) (h : Started ops closed bare right min used a (t :: rs ++ ts))
    (ht : ops.level t = some p) (hr : right (ops.after p) rs b)
    (hstop : ops.Stops (ops.after p) ts) :
    Started ops closed bare right min (used ++ t :: rs) (ops.build t a b) ts := by
  refine .inr ⟨p, hmin, ?_, hstop⟩
  by_cases htop : p < ops.top
  · have hafter : ops.after p = p + 1 := if_pos htop
    rw [hafter] at hr
    rcases h with h | ⟨q, hq, hchain, hstops⟩
    · exact .left htop ((Chain.closed h).lower hp le_rfl) ht hr
    · have hlt := hstops t rfl p ht
      have hpq : p ≤ q := by
        unfold after at hlt
        split at hlt
        · omega
        · omega
      exact .left htop (hchain.lower hpq hchain.le_top) ht hr
  · have hafter : ops.after p = ops.top := if_neg htop
    obtain rfl : p = ops.top := by omega
    rw [hafter] at hr
    rcases h with h | ⟨q, hq, hchain, hstops⟩
    · exact .tight h ht hr
    · -- after a chain the tightest operators are taken
      have hlt := hstops t rfl _ ht
      have hle : ops.after q ≤ ops.top := after_le
      omega

/-- The loop ends, or it reads an operator and its right operand. -/
theorem climb_cases {fuel : ℕ} {a b : ε} {ts rest : List τ}
    (h : ops.climb parse min fuel a ts = .ok (b, rest)) :
    ((a, ts) = (b, rest) ∧ ops.Stops min ts) ∨
      ∃ t ts' p n c r, ts = t :: ts' ∧ ops.level t = some p ∧ min ≤ p ∧ fuel = n + 1 ∧
        parse (ops.after p) ts' = .ok (c, r) ∧
        ops.climb parse min n (ops.build t a c) r = .ok (b, rest) := by
  cases ts with
  | nil =>
    rw [climb, Except.ok.injEq] at h
    exact .inl ⟨h, by simp [Stops]⟩
  | cons t ts =>
    unfold climb at h
    cases hlevel : ops.level t with
    | none =>
      rw [hlevel] at h
      refine .inl ⟨Except.ok.inj h, fun t' ht' q hq => ?_⟩
      obtain rfl := Option.some.inj ht'
      rw [hlevel] at hq
      cases hq
    | some p =>
      rw [hlevel] at h
      dsimp only at h
      by_cases hp : p < min
      · rw [if_pos hp] at h
        refine .inl ⟨Except.ok.inj h, fun t' ht' q hq => ?_⟩
        obtain rfl := Option.some.inj ht'
        rw [hlevel] at hq
        cases hq
        exact hp
      · rw [if_neg hp] at h
        cases fuel with
        | zero => cases h
        | succ n =>
          dsimp only at h
          cases hparse : parse (ops.after p) ts with
          | error e =>
            rw [hparse] at h
            cases h
          | ok result =>
            rw [hparse] at h
            exact .inr ⟨t, ts, p, n, _, _, rfl, hlevel, not_lt.1 hp, rfl, hparse, h⟩

/-- **What the reader returns is a chain** after which it stops. -/
theorem climb_sound (hlevels : ∀ t p, ops.level t = some p → p ≤ ops.top)
    (hparse : ∀ p ts b rest, p ≤ ops.top → parse p ts = .ok (b, rest) →
      ∃ used, ts = used ++ rest ∧ right p used b ∧ ops.Stops p rest)
    (hmin : min ≤ ops.top) {fuel : ℕ} {a b : ε} {used ts rest : List τ}
    (hstart : Started ops closed bare right min used a ts)
    (h : ops.climb parse min fuel a ts = .ok (b, rest)) :
    ∃ more, ts = more ++ rest ∧ ops.Chain closed bare right min (used ++ more) b ∧
      ops.Stops min rest := by
  induction fuel generalizing a used ts with
  | zero =>
    rcases climb_cases h with ⟨hsame, hstop⟩ | ⟨t, ts', p, n, c, r, rfl, hlevel, hp, hfuel, -⟩
    · cases hsame
      exact ⟨[], rfl, by rw [List.append_nil]; exact hstart.chain hmin, hstop⟩
    · cases hfuel
  | succ fuel ih =>
    rcases climb_cases h with
      ⟨hsame, hstop⟩ | ⟨t, ts', p, n, c, r, rfl, hlevel, hp, hfuel, hright, hloop⟩
    · cases hsame
      exact ⟨[], rfl, by rw [List.append_nil]; exact hstart.chain hmin, hstop⟩
    · cases hfuel
      obtain ⟨rs, rfl, hr, hstop⟩ := hparse _ _ _ _ after_le hright
      obtain ⟨more, rfl, hchain, hend⟩ :=
        ih (hstart.next (hlevels t p hlevel) hp hlevel hr hstop) hloop
      refine ⟨t :: rs ++ more, by simp, ?_, hend⟩
      rw [List.append_assoc] at hchain
      exact hchain

variable {operand : List τ → Except String (ε × List τ)}

/-- **The reader goes along every chain**: after it, it is in its loop. -/
theorem chain_climb
    (hclosed : ∀ ts a rest, closed ts a → operand (ts ++ rest) = .ok (a, rest))
    (hbare : ∀ ts a rest, bare ts a → ops.Stops ops.top rest → operand (ts ++ rest) = .ok (a, rest))
    (hparse : ∀ p ts b rest, right p ts b → ops.Stops p rest → parse p (ts ++ rest) = .ok (b, rest))
    {p : ℕ} {ts rest : List τ} {a : ε} (h : ops.Chain closed bare right p ts a) (hmin : min ≤ p)
    (hstop : ops.Stops (ops.after p) rest) : ∃ fuel, rest.length ≤ fuel ∧
      (do
        let (a, rest) ← operand (ts ++ rest)
        ops.climb parse min rest.length a rest) = ops.climb parse min fuel a rest := by
  induction h generalizing rest with
  | closed h =>
    refine ⟨rest.length, le_rfl, ?_⟩
    rw [hclosed _ _ _ h]
    rfl
  | bare h =>
    refine ⟨rest.length, le_rfl, ?_⟩
    rw [hbare _ _ _ h (hstop.mono after_le)]
    rfl
  | @up p ts a hp h ih =>
    refine ih (by omega) (hstop.mono ?_)
    unfold after
    rw [if_pos hp]
    split <;> omega
  | @left p ls rs t a b hp hl ht hr ih =>
    have hafter : ops.after p = p + 1 := if_pos hp
    rw [hafter] at hstop
    obtain ⟨fuel, hfuel, heq⟩ := @ih (t :: rs ++ rest) hmin (by
      intro t' ht' q hq
      obtain rfl := Option.some.inj ht'
      rw [ht] at hq
      cases hq
      omega)
    cases fuel with
    | zero => simp at hfuel
    | succ fuel =>
      refine ⟨fuel, by simp at hfuel; omega, ?_⟩
      rw [List.append_assoc]
      refine heq.trans ?_
      rw [List.cons_append, climb, ht]
      dsimp only
      rw [if_neg (by omega), hafter, hparse _ _ _ _ hr hstop]
      rfl
  | @tight ls rs t a b hl ht hr =>
    have hafter : ops.after ops.top = ops.top := if_neg (lt_irrefl _)
    rw [hafter] at hstop
    refine ⟨rs.length + rest.length, by omega, ?_⟩
    rw [List.append_assoc, hclosed _ _ _ hl]
    show ops.climb parse min (t :: rs ++ rest).length a (t :: rs ++ rest) = _
    rw [List.cons_append, List.length_cons, List.length_append, climb, ht]
    dsimp only
    rw [if_neg (by omega), hafter, hparse _ _ _ _ hr hstop]
    rfl

/-- **The reader returns every chain** of its level after which it stops. -/
theorem operandChain_climb
    (hclosed : ∀ ts a rest, closed ts a → operand (ts ++ rest) = .ok (a, rest))
    (hbare : ∀ ts a rest, bare ts a → ops.Stops ops.top rest → operand (ts ++ rest) = .ok (a, rest))
    (hparse : ∀ p ts b rest, right p ts b → ops.Stops p rest → parse p (ts ++ rest) = .ok (b, rest))
    {ts rest : List τ} {a : ε} (h : ops.Chain closed bare right min ts a)
    (hstop : ops.Stops min rest) :
    (do
      let (a, rest) ← operand (ts ++ rest)
      ops.climb parse min rest.length a rest) = .ok (a, rest) := by
  have hle : min ≤ ops.after min := by
    have htop := h.le_top
    unfold after
    split <;> omega
  obtain ⟨fuel, -, heq⟩ := chain_climb hclosed hbare hparse h le_rfl (hstop.mono hle)
  rw [heq, climb_stop hstop]

end

end Operators

end Lib
