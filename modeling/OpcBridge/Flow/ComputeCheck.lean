import OpcBridge.Core.Numerals
import OpcBridge.Flow.MathMeaning
import OpcBridge.Flow.NodeSpec
import OpcBridge.Flow.Validate
import OpcBridge.Lib.Run

/-!
# Validation of a compute node

`normalize_and_validate` tries the expression with every input set to one. An expression that is not
in the grammar, mentions another input or calls a function with a wrong number of arguments is
refused, and so is one that is undefined at that point (`compute_accepted_iff`). What is accepted
fails later only where its arithmetic is undefined (`accepted_run`).
-/

namespace OpcBridge.Flow

open Lib OpcBridge.Alarms MathExpression

/-! ## Blanks around an expression -/

section
variable {Lit : List Char → ℚ → Prop} {c : Char}

theorem pad_term (hc : isSpace c = true) (n : Nat) : ∀ {e : Expr} {u : List Char}, u.length < n →
    TermText Lit e u → TermText Lit e (c :: u) := by
  induction n with
  | zero => exact fun h => absurd h (Nat.not_lt_zero _)
  | succ n ih =>
    intro e u hlen h
    cases h with
    | one h => exact .one (.blank hc h)
    | @more a b u w u' op ha hw hop hb =>
      simp only [List.length_append, List.length_cons] at hlen
      exact .more (ih (by omega) ha) hw hop hb

theorem pad_sum (hc : isSpace c = true) (n : Nat) : ∀ {e : Expr} {u : List Char}, u.length < n →
    SumText Lit e u → SumText Lit e (c :: u) := by
  induction n with
  | zero => exact fun h => absurd h (Nat.not_lt_zero _)
  | succ n ih =>
    intro e u hlen h
    cases h with
    | one h => exact .one (pad_term hc _ (Nat.lt_succ_self _) h)
    | @more a b u w u' op ha hw hop hb =>
      simp only [List.length_append, List.length_cons] at hlen
      exact .more (ih (by omega) ha) hw hop hb

theorem SumText.pad {b : List Char} (hb : Blank b) {e : Expr} {u : List Char}
    (h : SumText Lit e u) : SumText Lit e (b ++ u) := by
  induction b with
  | nil => exact h
  | cons c b ih =>
    rw [Blank, List.forall_mem_cons] at hb
    exact pad_sum hb.1 _ (Nat.lt_succ_self _) (ih hb.2)

theorem trimChars_split (cs : List Char) :
    ∃ b w, cs = b ++ (trimChars cs ++ w) ∧ Blank b ∧ Blank w := by
  have hblank : ∀ {ds : List Char}, Blank (ds.takeWhile isSpace) := fun _ hc =>
    List.all_eq_true.1 List.all_takeWhile _ hc
  refine ⟨cs.takeWhile isSpace, ((cs.dropWhile isSpace).reverse.takeWhile isSpace).reverse, ?_,
    hblank, fun c hc => hblank c (List.mem_reverse.1 hc)⟩
  rw [trimChars, ← List.reverse_append, List.takeWhile_append_dropWhile, List.reverse_reverse,
    List.takeWhile_append_dropWhile]

/-- The text with its blanks is one of the tree as well. -/
theorem renders_of_trim {e : Expr} {text : String}
    (h : Renders Lit e (trimCopy text).toList) : Renders Lit e text.toList := by
  obtain ⟨b, w, htext, hb, hw⟩ := trimChars_split text.toList
  obtain ⟨u, w', htrim, hu, hw'⟩ := h
  rw [trimCopy, String.toList_ofList] at htrim
  refine ⟨b ++ u, w' ++ w, ?_, hu.pad hb, fun c hc => ?_⟩
  · rw [htext, htrim]
    simp
  · rcases List.mem_append.1 hc with hc | hc
    · exact hw' c hc
    · exact hw c hc

end

/-! ## The trial -/

/-- The library, with the expressions of this program. -/
class MathFlow [Floats] [MathOps F64] extends FlowLib where
  evaluate_eq : ∀ text inputs, evaluate text inputs = MathExpression.evaluate text inputs

/-- In the grammar, with declared inputs and functions with a permitted number of arguments. -/
def InGrammar (names : List String) (text : String) : Prop :=
  ∃ e : Expr, e.Valid names ∧ Renders NumberLiteral e text.toList

/-- The names as they stand in the node's settings. -/
structure InputNames [Floats] (items : List Json) (names : List String) : Prop where
  ne_nil : items ≠ []
  read : items.map (fun item => item.valueString "name" "") = names.map .ok
  valid : ∀ name ∈ names, inputNameValid name = true
  nodup : names.Nodup

section
variable [Floats]

omit [Floats] in
theorem trimCopy_name {name : String} (h : inputNameValid name = true) : trimCopy name = name := by
  refine trimCopy_eq_self fun c hc => ?_
  have hname : isNameChar c = true := by
    unfold inputNameValid at h
    split at h
    · cases h
    · rename_i d ds hd
      rw [hd] at hc
      rw [Bool.and_eq_true] at h
      exact List.all_eq_true.1 h.2 c hc
  by_contra hspace
  rw [(isSpace_alnum (by simpa using hspace)).2.2] at hname
  cases hname

theorem inputNames_ok {items : List Json} {names before : List String}
    (hread : items.map (fun item => item.valueString "name" "") = names.map .ok)
    (hvalid : ∀ name ∈ names, inputNameValid name = true) (hnodup : (before ++ names).Nodup) :
    inputNames items before = .ok (before ++ names) := by
  induction items generalizing names before with
  | nil =>
    cases names with
    | nil => rw [inputNames, List.append_nil]
    | cons name names => cases hread
  | cons item items ih =>
    cases names with
    | nil => cases hread
    | cons name names =>
      obtain ⟨hname, hread⟩ := List.cons.inj hread
      rw [List.forall_mem_cons] at hvalid
      have hnew : name ∉ before := by
        rw [List.nodup_append] at hnodup
        exact fun hmem => hnodup.2.2 name hmem name List.mem_cons_self rfl
      have hstep : Flow.inputNames items (before ++ [name]) = .ok (before ++ [name] ++ names) :=
        ih hread hvalid.2 (by simpa using hnodup)
      have hname : trimmed item "name" = .ok name := by
        unfold trimmed
        rw [show item.valueString "name" "" = .ok name from hname]
        exact congrArg Except.ok (trimCopy_name hvalid.1)
      have hspelling : ∀ error, flowError error (!inputNameValid name) = .ok () := by
        rw [hvalid.1]
        exact fun _ => rfl
      have hunique : ∀ error, flowError error (decide (name ∈ before)) = .ok () := by
        rw [decide_eq_false hnew]
        exact fun _ => rfl
      rw [List.append_assoc] at hstep
      rw [inputNames, hname]
      show (flowError _ _ >>= fun _ => flowError _ _ >>= fun _ => inputNames items _) = _
      rw [hspelling]
      show (flowError _ _ >>= fun _ => inputNames items _) = _
      rw [hunique]
      exact hstep

theorem InputNames.inputNames {items : List Json} {names : List String}
    (h : InputNames items names) : OpcBridge.Flow.inputNames items [] = .ok names :=
  inputNames_ok h.read h.valid h.nodup

variable [MathOps F64] [JsonLib] [MathFlow]

/-- Every input is one. -/
def ones (names : List String) : List (String × F64) :=
  names.map fun name => (name, Floats.ofInt 1)

/-- The value of the expression with every input one is defined and finite. -/
def DefinedAtOnes (names : List String) (text : String) : Prop :=
  ∃ (e : Expr) (v : F64), Renders NumberLiteral e text.toList ∧ e.value (ones names) = some v ∧
    MathOps.isFinite v = true

/-- The settings of a compute node. -/
structure ComputeNode (cfg : Json) (names : List String) (text : String) : Prop where
  inputs : ∃ items, cfg.memberItems "inputs" = some items ∧ InputNames items names
  expression : cfg.valueString "expression" "" = .ok text

omit [JsonLib] in
theorem checkCompute_iff {cfg : Json} {names : List String} {text : String}
    (h : ComputeNode cfg names text) :
    checkCompute cfg = .ok () ↔ DefinedAtOnes names (trimCopy text) := by
  obtain ⟨items, hitems, hnames⟩ := h.inputs
  obtain ⟨item, rest, rfl⟩ := List.exists_cons_of_ne_nil hnames.ne_nil
  have hsome : someItems "Compute requires at least one input" "inputs" cfg =
      .ok (item :: rest) := by
    unfold someItems
    rw [hitems]
  have htext : trimmed cfg "expression" = .ok (trimCopy text) := by
    unfold trimmed
    rw [h.expression]
    rfl
  unfold checkCompute
  rw [hsome]
  show (inputNames _ [] >>= fun names => trimmed cfg "expression" >>= fun expression =>
    flowError _ (expression == "") >>= fun _ => FlowLib.evaluate expression (ones names) >>= fun _ =>
      pure ()) = .ok () ↔ _
  rw [hnames.inputNames]
  show (trimmed cfg "expression" >>= fun expression => flowError _ (expression == "") >>= fun _ =>
    FlowLib.evaluate expression (ones names) >>= fun _ => pure ()) = .ok () ↔ _
  rw [htext]
  show (flowError _ (trimCopy text == "") >>= fun _ =>
    FlowLib.evaluate (trimCopy text) (ones names) >>= fun _ => pure ()) = .ok () ↔ _
  rw [MathFlow.evaluate_eq]
  constructor
  · intro hcheck
    obtain ⟨_, -, hcheck⟩ := ok_of_bind hcheck
    obtain ⟨v, hv, -⟩ := ok_of_bind hcheck
    obtain ⟨e, he, hvalue, hfinite⟩ := renders_of_evaluate hv
    exact ⟨e, v, he, hvalue, hfinite⟩
  · rintro ⟨e, v, he, hvalue, hfinite⟩
    have heval : evaluate (trimCopy text) (ones names) = .ok v := by
      refine ok_of_toOption ?_
      rw [evaluate_renders he, hvalue]
      simp [Option.filter, hfinite]
    have hne : (trimCopy text == "") = false := by
      rw [beq_eq_false_iff_ne]
      intro hempty
      rw [hempty] at he
      exact not_renders_empty (ones names) e he
    rw [hne, heval]
    rfl

omit [MathOps F64] [JsonLib] [MathFlow] in
theorem names_ones (names : List String) : (ones names).map Prod.fst = names := by
  simp [ones, Function.comp_def]

omit [JsonLib] [MathFlow] in
theorem DefinedAtOnes.inGrammar {names : List String} {text : String}
    (h : DefinedAtOnes names text) : InGrammar names text := by
  obtain ⟨e, v, he, hvalue, -⟩ := h
  have hvalid := (Expr.defined_of_value (Option.isSome_iff_exists.2 ⟨v, hvalue⟩)).valid
  rw [names_ones] at hvalid
  exact ⟨e, hvalid, he⟩

omit [JsonLib] in
/-- An expression is accepted as it should be exactly if it is defined at ones, or not in the
grammar. -/
theorem compute_accepted_iff {cfg : Json} {names : List String} {text : String}
    (h : ComputeNode cfg names text) :
    (checkCompute cfg = .ok () ↔ InGrammar names (trimCopy text)) ↔
      (InGrammar names (trimCopy text) → DefinedAtOnes names (trimCopy text)) := by
  rw [checkCompute_iff h]
  exact ⟨fun hiff => hiff.2, fun hdefined => ⟨DefinedAtOnes.inGrammar, hdefined⟩⟩

/-! ## Running an accepted node -/

/-- The node's state after events at some times. -/
def computeState (f : FlowDef) (names : List String) (text : String)
    (events : List (Int × QueuedEvent)) : NodeState :=
  run (fun s x => (nodeStep f (.compute names text) x.1 x.2 s).1) {} events

/-- The retained inputs are numbers. -/
def Numeric (s : NodeState) : Prop :=
  ∀ port e, s.compute port = some e → (asNumber e.value).isSome = true

theorem retention_compute {q : QueuedEvent} {s : NodeState} {names : List String} {text : String}
    {r : Retention} (h : retention q s (.compute names text) = .ok r) :
    r.retained = retain s.compute q ∧ (asNumber q.event.value).isSome = true ∧
      ∀ m, r.output = some (.error m) →
        (names.zipIdx.all fun x => (r.retained ("input_" ++ toString x.2)).isSome) = true ∧
        FlowLib.evaluate text (names.zipIdx.filterMap fun x =>
          (r.retained ("input_" ++ toString x.2)).bind fun e =>
            (asNumber e.value).map fun n => (x.1, n)) = .error m := by
  have h := writable_bind h
  dsimp only at h
  split at h
  · cases h
  · split at h
    · cases h
    · rename_i hnumber
      obtain rfl := Except.ok.inj h
      refine ⟨rfl, ?_, fun m hm => ?_⟩
      · cases hn : asNumber q.event.value with
        | none => exact absurd (by rw [hn]; rfl) hnumber
        | some x => rfl
      · dsimp only at hm ⊢
        split at hm
        · rename_i hall
          refine ⟨hall, ?_⟩
          have hm := Option.some.inj hm
          cases he : FlowLib.evaluate text (names.zipIdx.filterMap fun x =>
              (retain s.compute q ("input_" ++ toString x.2)).bind fun e =>
                (asNumber e.value).map fun n => (x.1, n)) with
          | error m' =>
            rw [he] at hm
            exact congrArg Except.error (Except.error.inj hm)
          | ok v =>
            rw [he] at hm
            cases hm
        · cases hm

omit [JsonLib] in
theorem numeric_retain {q : QueuedEvent} {s : NodeState} (h : Numeric s)
    (hq : (asNumber q.event.value).isSome = true) (port : String) (e : FlowEvent)
    (he : retain s.compute q port = some e) : (asNumber e.value).isSome = true := by
  unfold retain at he
  by_cases hport : port = q.inputPort
  · subst hport
    rw [Function.update_self] at he
    obtain rfl := Option.some.inj he
    exact hq
  · rw [Function.update_of_ne hport] at he
    exact h port e he

theorem numeric_step {f : FlowDef} {names : List String} {text : String} {s : NodeState}
    (h : Numeric s) (x : Int × QueuedEvent) :
    Numeric (nodeStep f (.compute names text) x.1 x.2 s).1 := by
  show Numeric (retainStep f _ x.2 s).1
  unfold retainStep
  cases hr : retention x.2 s (.compute names text) with
  | error m => exact h
  | ok r =>
    obtain ⟨hretained, hnumber, -⟩ := retention_compute hr
    intro port e he
    change r.retained port = some e at he
    rw [hretained] at he
    exact numeric_retain h hnumber port e he

theorem numeric_state (f : FlowDef) (names : List String) (text : String)
    (events : List (Int × QueuedEvent)) : Numeric (computeState f names text events) := by
  have hstep : ∀ (s : NodeState) (x : Int × QueuedEvent), Numeric s →
      Numeric (nodeStep f (.compute names text) x.1 x.2 s).1 := fun s x h => numeric_step h x
  have hstart : Numeric {} := fun _ _ he => by cases he
  exact run_induct hstep hstart events

omit [Floats] [MathOps F64] [JsonLib] [MathFlow] in
theorem names_filterMap {β γ : Type} {g : String × β → Option (String × γ)} {l : List (String × β)}
    (h : ∀ x ∈ l, ∃ n, g x = some (x.1, n)) : (l.filterMap g).map Prod.fst = l.map Prod.fst := by
  induction l with
  | nil => rfl
  | cons x l ih =>
    rw [List.forall_mem_cons] at h
    obtain ⟨n, hn⟩ := h.1
    rw [List.filterMap_cons_some hn, List.map_cons, List.map_cons, ih h.2]

/-- What an accepted node fails with: its arithmetic is undefined, or the result is not finite. -/
def UndefinedAt (names : List String) (text : String) : Prop :=
  ∃ (e : Expr) (inputs : List (String × F64)), e.Valid names ∧
    Renders NumberLiteral e text.toList ∧ inputs.map Prod.fst = names ∧
    (e.Undefined inputs ∨ ∃ v, e.value inputs = some v ∧ MathOps.isFinite v = false)

/-- A failure of an accepted node. -/
theorem accepted_run {cfg : Json} {names : List String} {text : String}
    (h : ComputeNode cfg names text) (haccepted : checkCompute cfg = .ok ()) {f : FlowDef}
    {events : List (Int × QueuedEvent)} {q : QueuedEvent} {r : Retention} {m : String}
    (hr : retention q (computeState f names text events) (.compute names text) = .ok r)
    (hm : r.output = some (.error m)) : UndefinedAt names text := by
  obtain ⟨e, v, he, hvalue, -⟩ := (checkCompute_iff h).1 haccepted
  have hones := Expr.defined_of_value (Option.isSome_iff_exists.2 ⟨v, hvalue⟩)
  have hvalid := hones.valid
  rw [names_ones] at hvalid
  obtain ⟨hretained, hnumber, herror⟩ := retention_compute hr
  obtain ⟨hall, heval⟩ := herror m hm
  have hnames := names_filterMap (l := names.zipIdx) (g := fun x =>
      (r.retained ("input_" ++ toString x.2)).bind fun e =>
        (asNumber e.value).map fun n => (x.1, n)) fun x hx => by
    obtain ⟨e, he⟩ := Option.isSome_iff_exists.1 (List.all_eq_true.1 hall x hx)
    have hnumeric : (asNumber e.value).isSome = true := by
      rw [hretained] at he
      exact numeric_retain (numeric_state f names text events) hnumber _ e he
    obtain ⟨n, hn⟩ := Option.isSome_iff_exists.1 hnumeric
    exact ⟨n, by rw [he, Option.bind_some, hn]; rfl⟩
  rw [List.zipIdx_map_fst] at hnames
  rw [MathFlow.evaluate_eq] at heval
  have hrenders := renders_of_trim he
  refine ⟨e, _, hvalid, hrenders, hnames, ?_⟩
  have hfilter := evaluate_renders hrenders (names.zipIdx.filterMap fun x =>
    (r.retained ("input_" ++ toString x.2)).bind fun e => (asNumber e.value).map fun n => (x.1, n))
  rw [heval] at hfilter
  cases hv : e.value (names.zipIdx.filterMap fun x =>
      (r.retained ("input_" ++ toString x.2)).bind fun e =>
        (asNumber e.value).map fun n => (x.1, n)) with
  | none => exact .inl ((Expr.value_none_iff (by rw [hnames]; exact hvalid) hones.inRange).1 hv)
  | some x =>
    refine .inr ⟨x, rfl, ?_⟩
    rw [hv] at hfilter
    by_contra hfinite
    simp [Option.filter, Except.toOption, hfinite] at hfilter

end

/-! ## Examples -/

/-- Whole numbers; a power and a root where they are whole. -/
@[reducible] def wholeMath : MathOps Int where
  ofInt n := n
  ofRat q := if q.den = 1 then some q.num else none
  add := (· + ·)
  sub := (· - ·)
  mul := (· * ·)
  div := Int.tdiv
  fmod := Int.tmod
  pow x y := x ^ y.toNat
  neg x := -x
  abs x := x.natAbs
  sqrt x := Nat.sqrt x.toNat
  floor x := x
  ceil x := x
  round x := x
  lt x y := decide (x < y)
  eq x y := decide (x = y)
  isFinite _ := true

@[reducible] def intMath : @MathOps (@F64 intFloats) := wholeMath

@[reducible] def intMathFlow : @MathFlow intFloats intMath :=
  letI := intFloats
  letI := intMath
  { intFlowLib with
    evaluate := MathExpression.evaluate
    evaluate_eq := fun _ _ => rfl }

section
attribute [local instance] intFloats intMath intJson intMathFlow

def computeNode (expression : String) : Json := .object
  [("inputs", .array [.object [("name", .string "x")]]), ("expression", .string expression)]

theorem computeNode_node (expression : String) :
    ComputeNode (computeNode expression) ["x"] expression where
  inputs := ⟨_, rfl, by simp, rfl, by decide, by decide⟩
  expression := rfl

def zeroInput : QueuedEvent where
  flowId := "flow"
  nodeId := "c"
  event := { present := true, value := .int 0, quality := "good" }
  inputPort := "input_0"

end

end OpcBridge.Flow
