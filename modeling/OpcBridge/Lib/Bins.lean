import OpcBridge.Lib.Keyed
import Mathlib.Data.List.Induction
import Mathlib.Data.Int.Init
import Mathlib.Algebra.Order.Ring.Int
import Mathlib.Algebra.Order.Group.Int
import Mathlib.Tactic.Linarith

/-!
# Bins of a time axis

A bin stands for the times from its start `t` to `t + width`, with what was summarised of them.
`rebin` puts bins into bins of another width: those with one new start are combined, in order.
`lookup_rebin` says what a new bin holds when cells are lists; for bins with increasing starts the
new bins increase too (`rebin_sorted`) and hold the same in the same order (`flatMap_rebin`).
Whatever a combining map makes of cells, `rebin` commutes with it (`rebin_map`).
-/

namespace Lib

/-- The start of the bin of a time. -/
def binStart (width time : Int) : Int := time / width * width

theorem binStart_le {width time : Int} (hwidth : 0 < width) : binStart width time ≤ time :=
  Int.ediv_mul_le time (by omega)

theorem lt_binStart_add {width time : Int} (hwidth : 0 < width) :
    time < binStart width time + width := by
  have h := Int.lt_ediv_add_one_mul_self time hwidth
  rw [Int.add_mul, Int.one_mul] at h
  exact h

theorem dvd_binStart (width time : Int) : width ∣ binStart width time := Int.dvd_mul_left _ _

theorem binStart_mono {width a b : Int} (hwidth : 0 < width) (h : a ≤ b) :
    binStart width a ≤ binStart width b :=
  Int.mul_le_mul_of_nonneg_right (Int.ediv_le_ediv hwidth h) (by omega)

/-- A start that is none too late is the start of the bin or before it. -/
theorem le_binStart {width t time : Int} (hwidth : 0 < width) (hdvd : width ∣ t) (h : t ≤ time) :
    t ≤ binStart width time := by
  obtain ⟨k, rfl⟩ := hdvd
  have hk : k ≤ time / width := by
    rw [Int.le_ediv_iff_mul_le hwidth, Int.mul_comm]
    exact h
  rw [binStart, Int.mul_comm width k]
  exact Int.mul_le_mul_of_nonneg_right hk (by omega)

theorem binStart_eq {width t time : Int} (hwidth : 0 < width) (hdvd : width ∣ t) (hle : t ≤ time)
    (hlt : time < t + width) : binStart width time = t := by
  have hge := le_binStart hwidth hdvd hle
  have hup : binStart width time < t + width := (binStart_le hwidth).trans_lt hlt
  obtain ⟨k, hk⟩ := dvd_binStart width time
  obtain ⟨j, rfl⟩ := hdvd
  rw [hk] at hge hup ⊢
  have h1 : j ≤ k := le_of_mul_le_mul_left hge hwidth
  have h2 : k < j + 1 := by
    refine lt_of_mul_lt_mul_left ?_ hwidth.le
    rw [Int.mul_add, Int.mul_one]
    exact hup
  rw [show k = j by omega]

structure Bin (σ : Type*) where
  t : Int
  cell : σ
deriving DecidableEq

namespace Bin

variable {σ τ : Type*}

def map (f : σ → τ) (bin : Bin σ) : Bin τ := ⟨bin.t, f bin.cell⟩

@[simp] theorem map_t (f : σ → τ) (bin : Bin σ) : (bin.map f).t = bin.t := rfl

/-- The key of a bin. -/
def key (bin : Bin σ) : Option Int := some bin.t

theorem key_eq {bin : Bin σ} {t : Int} : key bin = some t ↔ bin.t = t := by simp [key]

theorem lookup_put (bins : List (Bin σ)) (t : Int) (held : σ) (j : Int) :
    Keyed.lookup key (Keyed.put key bins t ⟨t, held⟩) j =
      if t = j then some ⟨t, held⟩ else Keyed.lookup key bins j :=
  Keyed.lookup_put rfl

theorem lookup_map (f : σ → τ) (bins : List (Bin σ)) (t : Int) :
    Keyed.lookup key (bins.map (map f)) t = (Keyed.lookup key bins t).map (map f) :=
  Keyed.lookup_map (fun _ => rfl) bins t

theorem put_map (f : σ → τ) (bins : List (Bin σ)) (bin : Bin σ) :
    Keyed.put key (bins.map (map f)) bin.t (bin.map f) =
      (Keyed.put key bins bin.t bin).map (map f) :=
  Keyed.put_map (fun _ => rfl) bins bin.t bin

section
variable (combine : σ → σ → σ)

/-- The bin goes into the one with the new start, or makes it. -/
def absorb (width : Int) (merged : List (Bin σ)) (bin : Bin σ) : List (Bin σ) :=
  let t := binStart width bin.t
  match Keyed.lookup key merged t with
  | some old => Keyed.put key merged t ⟨t, combine old.cell bin.cell⟩
  | none => Keyed.put key merged t ⟨t, bin.cell⟩

def rebin (width : Int) (bins : List (Bin σ)) : List (Bin σ) :=
  bins.foldl (absorb combine width) []

theorem rebin_append (width : Int) (bins : List (Bin σ)) (bin : Bin σ) :
    rebin combine width (bins ++ [bin]) = absorb combine width (rebin combine width bins) bin := by
  rw [rebin, List.foldl_append]
  rfl

end

theorem rebin_map {f : σ → τ} {combine : σ → σ → σ} {combine' : τ → τ → τ}
    (hf : ∀ a b, f (combine a b) = combine' (f a) (f b)) (width : Int) (bins : List (Bin σ)) :
    rebin combine' width (bins.map (map f)) = (rebin combine width bins).map (map f) := by
  induction bins using List.reverseRecOn with
  | nil => rfl
  | append_singleton bins bin ih =>
    rw [List.map_append, List.map_singleton, rebin_append, ih, rebin_append, absorb, absorb,
      map_t, lookup_map]
    cases Keyed.lookup key (rebin combine width bins) (binStart width bin.t) with
    | none => exact put_map f _ ⟨binStart width bin.t, bin.cell⟩
    | some old =>
      refine Eq.trans ?_ (put_map f _ ⟨binStart width bin.t, combine old.cell bin.cell⟩)
      exact congrArg (Keyed.put key _ _) (congrArg _ (hf old.cell bin.cell).symm)

/-! ## Cells that are lists -/

variable {μ : Type*}

def rebinned (width : Int) (bins : List (Bin (List μ))) : List (Bin (List μ)) :=
  rebin (· ++ ·) width bins

/-- The bins with one new start. -/
def within (width : Int) (bins : List (Bin (List μ))) (t : Int) : List (Bin (List μ)) :=
  bins.filter fun bin => binStart width bin.t = t

/-- A new bin holds what the bins with its start held, in their order. -/
theorem lookup_rebin (width : Int) (bins : List (Bin (List μ))) (t : Int) :
    Keyed.lookup key (rebinned width bins) t =
      if within width bins t = [] then none
      else some ⟨t, (within width bins t).flatMap cell⟩ := by
  induction bins using List.reverseRecOn with
  | nil => rfl
  | append_singleton bins bin ih =>
    have happend : within width (bins ++ [bin]) t =
        within width bins t ++ if binStart width bin.t = t then [bin] else [] := by
      rw [within, List.filter_append]
      by_cases h : binStart width bin.t = t <;> simp [within, h]
    rw [rebinned, rebin_append, happend, ← rebinned, absorb]
    by_cases h : binStart width bin.t = t
    · simp only [h, ih]
      by_cases hnil : within width bins t = []
      · simp [hnil, lookup_put]
      · simp [hnil, lookup_put]
    · rw [if_neg h, List.append_nil, ← ih]
      split <;> rw [lookup_put, if_neg h]

theorem mem_rebin {width : Int} {bins : List (Bin (List μ))} {bin : Bin (List μ)}
    (h : Keyed.lookup key (rebinned width bins) bin.t = some bin) :
    bin.cell = (within width bins bin.t).flatMap cell ∧
      ∃ b ∈ bins, binStart width b.t = bin.t := by
  rw [lookup_rebin] at h
  split at h
  · cases h
  · rename_i hne
    obtain ⟨b, hb⟩ := List.exists_mem_of_ne_nil _ hne
    obtain ⟨hb, ht⟩ := List.mem_filter.1 hb
    refine ⟨?_, b, hb, by simpa using ht⟩
    exact congrArg cell (Option.some.inj h).symm

def Increasing (bins : List (Bin σ)) : Prop := bins.Pairwise fun a b => a.t < b.t

theorem Increasing.keyed {bins : List (Bin σ)} (h : Increasing bins) : Keyed key bins := by
  have hkeys : bins.filterMap key = bins.map t := by
    rw [← List.filterMap_eq_map]
    rfl
  rw [Keyed, hkeys, List.Nodup, List.pairwise_map]
  exact h.imp fun hlt heq => absurd heq (by omega)

theorem put_new {bins : List (Bin σ)} {t : Int} {bin : Bin σ}
    (h : Keyed.lookup key bins t = none) : Keyed.put key bins t bin = bins ++ [bin] := by
  induction bins with
  | nil => rfl
  | cons b bins ih =>
    rw [Keyed.lookup_cons] at h
    split at h
    · cases h
    · rename_i hb
      rw [Keyed.put, if_neg hb, ih h]
      rfl

/-- The last bin is the one that is replaced. -/
theorem put_last {bins : List (Bin σ)} {last bin : Bin σ} (h : ∀ b ∈ bins, b.t < last.t) :
    Keyed.put key (bins ++ [last]) last.t bin = bins ++ [bin] := by
  induction bins with
  | nil =>
    rw [List.nil_append, Keyed.put, if_pos (key_eq.2 rfl)]
    rfl
  | cons b bins ih =>
    have hb := h b List.mem_cons_self
    have hne : key b ≠ some last.t := fun heq => absurd (key_eq.1 heq) (by omega)
    rw [List.cons_append, Keyed.put, if_neg hne, ih fun b hb => h b (List.mem_cons_of_mem _ hb)]
    rfl

/-- Among increasing bins that start no later than `t`, the one that starts at `t` is the last. -/
theorem Increasing.last {bins : List (Bin σ)} (hinc : Increasing bins) {t : Int} {old : Bin σ}
    (hle : ∀ b ∈ bins, b.t ≤ t) (h : Keyed.lookup key bins t = some old) :
    ∃ front, bins = front ++ [old] ∧ old.t = t ∧ ∀ b ∈ front, b.t < t := by
  obtain ⟨hmem, hkey⟩ := Keyed.mem_of_lookup h
  obtain ⟨front, back, rfl⟩ := List.append_of_mem hmem
  have ht := key_eq.1 hkey
  have hafter := (List.pairwise_append.1 hinc)
  have hback : back = [] := by
    refine List.eq_nil_iff_forall_not_mem.2 fun b hb => ?_
    have hlt := List.rel_of_pairwise_cons hafter.2.1 hb
    have hb := hle b (List.mem_append_right _ (List.mem_cons_of_mem _ hb))
    omega
  subst hback
  refine ⟨front, rfl, ht, fun b hb => ?_⟩
  have hlt := hafter.2.2 b hb old List.mem_cons_self
  omega

section
variable {width : Int} (hwidth : 0 < width) {bins : List (Bin (List μ))}
include hwidth

/-- New bins of increasing bins increase, and hold the same in the same order. -/
theorem rebin_spec (hinc : Increasing bins) :
    Increasing (rebinned width bins) ∧
      (rebinned width bins).flatMap cell = bins.flatMap cell := by
  induction bins using List.reverseRecOn with
  | nil => exact ⟨List.Pairwise.nil, rfl⟩
  | append_singleton bins bin ih =>
    obtain ⟨hbins, -, hlast⟩ := List.pairwise_append.1 hinc
    obtain ⟨hsorted, hcells⟩ := ih hbins
    have hle : ∀ b ∈ rebinned width bins, b.t ≤ binStart width bin.t := fun b hb => by
      obtain ⟨-, c, hc, ht⟩ := mem_rebin ((Keyed.mem_iff hsorted.keyed rfl).1 hb)
      rw [← ht]
      exact binStart_mono hwidth (hlast c hc bin List.mem_cons_self).le
    rw [rebinned, rebin_append, ← rebinned, absorb, List.flatMap_append, ← hcells]
    cases hlookup : Keyed.lookup key (rebinned width bins) (binStart width bin.t) with
    | none =>
      simp only [put_new hlookup]
      refine ⟨List.pairwise_append.2 ⟨hsorted, List.pairwise_singleton _ _, ?_⟩, ?_⟩
      · intro b hb c hc
        obtain rfl := List.mem_singleton.1 hc
        have hne : b.t ≠ binStart width bin.t := fun heq => by
          have hsome := (Keyed.mem_iff hsorted.keyed (key_eq.2 heq)).1 hb
          rw [hlookup] at hsome
          cases hsome
        exact lt_of_le_of_ne (hle b hb) hne
      · simp [List.flatMap_append]
    | some old =>
      obtain ⟨front, hfront, ht, hlt⟩ := hsorted.last hle hlookup
      simp only [hfront]
      rw [← ht, put_last fun b hb => ht ▸ hlt b hb]
      refine ⟨List.pairwise_append.2 ⟨?_, List.pairwise_singleton _ _, ?_⟩, ?_⟩
      · rw [hfront] at hsorted
        exact (List.pairwise_append.1 hsorted).1
      · intro b hb c hc
        obtain rfl := List.mem_singleton.1 hc
        exact ht ▸ hlt b hb
      · simp [List.flatMap_append]

theorem rebin_sorted (hinc : Increasing bins) : Increasing (rebinned width bins) :=
  (rebin_spec hwidth hinc).1

theorem flatMap_rebin (hinc : Increasing bins) :
    (rebinned width bins).flatMap cell = bins.flatMap cell :=
  (rebin_spec hwidth hinc).2

/-- What one of the new bins holds, and where it starts. -/
theorem rebin_mem (hinc : Increasing bins) {bin : Bin (List μ)} (h : bin ∈ rebinned width bins) :
    bin.cell = (within width bins bin.t).flatMap cell ∧
      ∃ b ∈ bins, binStart width b.t = bin.t :=
  mem_rebin ((Keyed.mem_iff (rebin_sorted hwidth hinc).keyed rfl).1 h)

end

end Bin

end Lib
