import OpcBridge.Poll.Suspend

/-!
# Derived values follow their root

What the derived tags of a root should hold after a successful read of it is said by `Composes`: the
value of a name is the value that was read for the root or for an element, or the value of its
source taken through the link of the tag (`linkValue`). `FollowsRead` compares a cached snapshot
with that.

The poll loop derives by the immediate source only and has no string aliases. `derived_of_direct`
is the positive half; `nested_not_published` and `stringAlias_not_good` are the two ways to miss.
-/

namespace OpcBridge

open Lib

section
variable [Floats]

/-! ## Composition of the links -/

/-- The bit of a word. -/
def wordBit (v : TagValue) (bit : Nat) : Option Bool :=
  match v with
  | .int16 n => if bit < 64 then some (n.toUInt16.toNat.testBit bit) else none
  | .uint16 n => if bit < 64 then some (n.toNat.testBit bit) else none
  | .int32 n => if bit < 64 then some (n.toUInt32.toNat.testBit bit) else none
  | .uint32 n => if bit < 64 then some (n.toNat.testBit bit) else none
  | .bool b => if bit = 0 then some b else none
  | _ => none

/-- The published datatype of a derived tag. -/
def TagRuntime.aliasDatatype (tag : TagRuntime) : String := tag.outDatatypeOr tag.cfg.datatype

/-- What a derived tag makes of the value of its source: a bit or its inverse; an unscaled alias of
the same datatype keeps a number or a string; else the cast of the scaled and clamped number. A
`bool` alias has the inversion of a bit. -/
def linkValue (tag : TagRuntime) (v : TagValue) : Option TagValue :=
  match tag.cfg.bit with
  | some bit => (wordBit v bit).map fun b => .bool (b ^^ tag.cfg.invert)
  | none =>
    if v.datatype ≠ "bool" ∧ tag.scalingLinear = false ∧ tag.aliasDatatype = v.datatype then some v
    else aliasValue tag v

/-- The value that the links give to a name after a read of the root `item`. -/
inductive Composes (driver : DriverContext) (item : TagRuntime) (read : LogixReadResult) :
    String → TagValue → Prop
  | scalar : item.cfg.elemCount ≤ 1 → read.ok = true → read.snapshot.quality = 1 →
      Composes driver item read item.name read.snapshot.value
  | element {tag : TagRuntime} {i : Nat} {element : TagSnapshot} : 1 < item.cfg.elemCount →
      tag ∈ driver.tags → tag.pollSource = item.name → tag.name = elementName item.name i →
      i < item.cfg.elemCount → read.ok = true → read.elements[i]? = some element →
      element.quality = 1 → Composes driver item read tag.name element.value
  | link (tag : TagRuntime) {v w : TagValue} : tag ∈ driver.tags → tag.cfg.enabled = true →
      tag.pollSource = "" → tag.cfg.sourceTag ≠ "" →
      Composes driver item read tag.cfg.sourceTag v → linkValue tag v = some w →
      Composes driver item read tag.name w

/-- The datatype label of a derived tag. -/
def linkDatatype (tag : TagRuntime) : String :=
  if tag.cfg.bit.isSome then "bool" else tag.aliasDatatype

/-- The gate of a name, if it has one, lets the read through. -/
def Admits (driver : DriverContext) (read : LogixReadResult) (now : Nat) (name : String) : Prop :=
  ∀ gate, driver.pollGates name = some gate →
    gate.quality (readStamp driver read) true now = .good

/-- A snapshot of a derived tag with the composed value, the stamp of the read and good quality. -/
structure FollowsRead (driver : DriverContext) (read : LogixReadResult) (tag : TagRuntime)
    (w : TagValue) (snap : TagSnapshot) : Prop where
  value : snap.value = w
  datatype : snap.datatype = linkDatatype tag
  pollRead : snap.pollRead = readStamp driver read
  quality : snap.quality = 1

/-- The source of the tag is published by the read itself: it is the polled scalar, or a generated
element, and no later element of the block takes the name of the tag. -/
inductive Direct (driver : DriverContext) (item tag : TagRuntime) : Prop
  | scalar : item.cfg.elemCount ≤ 1 → tag.cfg.sourceTag = item.name → Direct driver item tag
  | element {e : TagRuntime} {i : Nat} : 1 < item.cfg.elemCount → e ∈ driver.tags →
      e.pollSource = item.name → e.name = elementName item.name i → i < item.cfg.elemCount →
      tag.cfg.sourceTag = e.name →
      (∀ j, i < j → j < item.cfg.elemCount → tag.name ≠ elementName item.name j) →
      Direct driver item tag

/-- A bit, or an alias with another published datatype than `string`. -/
def NotStringAlias (tag : TagRuntime) : Prop := tag.cfg.bit = none → tag.aliasDatatype ≠ "string"

/-! ## One link -/

/-- The poll loop computes the link of a good source. -/
theorem derive_of_linkValue {conn : ConnectionConfig} {src : TagSnapshot} {tag : TagRuntime}
    {w : TagValue} (hs : NotStringAlias tag) (hq : src.quality = 1) (ha : src.arrayValues = [])
    (h : linkValue tag src.value = some w) :
    derive conn src tag = derivedSnapshot conn tag.name (linkDatatype tag) src 1 w := by
  unfold linkValue at h
  unfold derive linkDatatype
  cases hb : tag.cfg.bit with
  | some bit =>
    rw [hb] at h
    obtain ⟨b, hbit, rfl⟩ := Option.map_eq_some_iff.1 h
    have hx : extractBitFromSnapshot src bit = some b := by
      unfold extractBitFromSnapshot
      rw [if_neg (by simp [ha])]
      unfold wordBit at hbit
      cases hv : src.value with
      | bool c =>
        rw [hv] at hbit
        simp only [Option.ite_none_right_eq_some, Option.some.injEq] at hbit
        obtain ⟨rfl, rfl⟩ := hbit
        cases c <;> rfl
      | int16 n => rw [hv] at hbit; simp_all
      | uint16 n => rw [hv] at hbit; simp_all
      | int32 n => rw [hv] at hbit; simp_all
      | uint32 n => rw [hv] at hbit; simp_all
      | float32 x => rw [hv] at hbit; cases hbit
      | float64 x => rw [hv] at hbit; cases hbit
      | string s => rw [hv] at hbit; cases hbit
    have hinv : (if src.quality = 1 ∧ tag.cfg.invert then !b else b) = (b ^^ tag.cfg.invert) := by
      cases tag.cfg.invert <;> cases b <;> simp [hq]
    simp only [deriveBit, hx, hinv, Option.isSome_some, if_true]
    rw [hq]
    rfl
  | none =>
    rw [hb] at h
    have hv : aliasValue tag src.value = some w := by
      dsimp only at h
      split at h
      · -- an identity goes over `double` and back
        rename_i hid
        obtain ⟨hbool, hlin, hdt⟩ := hid
        cases h
        have hstr := hs hb
        rw [TagRuntime.aliasDatatype] at hdt hstr
        have hnum : ∃ x, tagvalueToDouble src.value = some x ∧
            aliasNumber src.value = some x := by
          cases hv : src.value with
          | bool c => rw [hv] at hbool; exact absurd rfl hbool
          | string s => rw [hdt, hv] at hstr; exact absurd rfl hstr
          | _ => exact ⟨_, rfl, rfl⟩
        obtain ⟨x, hx, hn⟩ := hnum
        unfold aliasValue
        dsimp only
        rw [if_neg (by rw [hdt]; exact hbool), hn]
        simp only [hlin, hdt, Bool.false_eq_true, if_false, cast_tagvalueToDouble hx]
      · exact h
    simp only [deriveAlias, hq, hv, ne_eq, not_true_eq_false, if_false, Option.isSome_none,
      Bool.false_eq_true]
    rfl

/-- There is no string alias: it is published as bad. -/
theorem stringAlias_not_good {conn : ConnectionConfig} {src : TagSnapshot} {tag : TagRuntime}
    (h : ¬ NotStringAlias tag) : (derive conn src tag).quality ≠ 1 := by
  unfold NotStringAlias at h
  push Not at h
  obtain ⟨hb, hdt⟩ := h
  rw [TagRuntime.aliasDatatype] at hdt
  have hv : aliasValue tag src.value = none := by
    unfold aliasValue
    dsimp only
    rw [hdt, if_neg (by decide)]
    split
    · rfl
    · simp [castDoubleToTagvalue]
  unfold derive deriveAlias
  rw [hb]
  dsimp only
  split
  · assumption
  · rw [hv]
    exact Nat.zero_ne_one

/-- A good snapshot of an admitted read passes its gate. -/
theorem applyPollCacheGate_admitted {driver : DriverContext} {read : LogixReadResult} {now : Nat}
    (snap : TagSnapshot) (hg : Admits driver read now snap.logicalName)
    (hp : snap.pollRead = readStamp driver read) (hq : snap.quality = 1) :
    ∃ state, applyPollCacheGate driver snap now = { snap with pollingState := state } := by
  unfold applyPollCacheGate
  cases hgate : driver.pollGates snap.logicalName with
  | none => exact ⟨snap.pollingState, rfl⟩
  | some gate =>
    have hgood := hg gate hgate
    dsimp only
    rw [if_neg (by simp [hq]), hp, hq]
    simp only [beq_self_eq_true, hgood]
    exact ⟨.active, rfl⟩

/-! ## Where a composed value comes from -/

section
variable {driver : DriverContext} {item : TagRuntime} {read : LogixReadResult}

/-- What `Composes` says of a derived tag. -/
theorem composes_derived {tag : TagRuntime} {w : TagValue} (hitem : driver.polled item.name = some item)
    (ht : tag ∈ driver.tags) (hp : tag.pollSource = "") (hs : tag.cfg.sourceTag ≠ "")
    (h : Composes driver item read tag.name w) :
    tag.cfg.enabled = true ∧
      ∃ v, Composes driver item read tag.cfg.sourceTag v ∧ linkValue tag v = some w := by
  obtain ⟨hmem, -, hparent⟩ := DriverContext.polled_eq_some hitem
  have hsame : ∀ t ∈ driver.tags, t.name = tag.name → t = tag :=
    fun t htm hn => List.inj_on_of_nodup_map driver.names_nodup htm ht hn
  generalize hn : tag.name = name at h
  cases h with
  | scalar =>
    rw [hsame item hmem hn.symm, TagRuntime.parent] at hparent
    simp [hp, hs] at hparent
  | element _ htm hps =>
    rw [hsame _ htm hn.symm, hp] at hps
    exact absurd hps.symm item.cfg.logicalName_ne
  | link _ htm he _ _ hv hw =>
    rw [hsame _ htm hn.symm] at he hv hw
    exact ⟨he, _, hv, hw⟩

/-- The value of the polled scalar is the value that was read. -/
theorem composes_scalar {v : TagValue} (hitem : driver.polled item.name = some item)
    (hc : item.cfg.elemCount ≤ 1) (h : Composes driver item read item.name v) :
    read.ok = true ∧ read.snapshot.quality = 1 ∧ read.snapshot.value = v := by
  obtain ⟨hmem, -, hparent⟩ := DriverContext.polled_eq_some hitem
  generalize hn : item.name = name at h
  cases h with
  | scalar _ hok hq => exact ⟨hok, hq, rfl⟩
  | element hc' => omega
  | link _ htm _ hp hs =>
    rw [List.inj_on_of_nodup_map driver.names_nodup htm hmem hn.symm] at hp hs
    simp [TagRuntime.parent, hp, hs] at hparent

/-- The value of a generated element is the value that was read for it. -/
theorem composes_element {e : TagRuntime} {i : Nat} {v : TagValue}
    (hc : 1 < item.cfg.elemCount) (he : e ∈ driver.tags) (hp : e.pollSource = item.name)
    (hn : e.name = elementName item.name i) (h : Composes driver item read e.name v) :
    read.ok = true ∧ ∃ element, read.elements[i]? = some element ∧ element.quality = 1 ∧
      element.value = v := by
  generalize hname : e.name = name at h
  cases h with
  | scalar hc' => omega
  | @element t j element _ htm _ hn' _ hok hget hq =>
    obtain rfl : j = i := elementName_inj.1 (by rw [← hn', ← hname, hn])
    exact ⟨hok, element, hget, hq, rfl⟩
  | link _ htm _ hp' =>
    rw [List.inj_on_of_nodup_map driver.names_nodup htm he hname.symm, hp] at hp'
    exact absurd hp' item.cfg.logicalName_ne

/-! ## Publication of a derived tag -/

variable {tag : TagRuntime} {w : TagValue} {now : Instant}

/-- The stored snapshot of a derived tag whose gated source has the value that was read. -/
theorem followsRead_derive (src : TagSnapshot) (hstr : NotStringAlias tag)
    (hw : linkValue tag src.value = some w)
    (hgs : Admits driver read now.steady src.logicalName)
    (hgt : Admits driver read now.steady tag.name) (hp : src.pollRead = readStamp driver read)
    (hq : src.quality = 1) (ha : src.arrayValues = []) :
    FollowsRead driver read tag w (applyPollCacheGate driver (derive driver.conn
      (applyPollCacheGate driver src now.steady) tag) now.steady) := by
  obtain ⟨state, hsrc⟩ := applyPollCacheGate_admitted src hgs hp hq
  have hd : derive driver.conn { src with pollingState := state } tag =
      derivedSnapshot driver.conn tag.name (linkDatatype tag) { src with pollingState := state } 1
        w := derive_of_linkValue hstr hq ha hw
  obtain ⟨state', htag⟩ := applyPollCacheGate_admitted (derivedSnapshot driver.conn tag.name
    (linkDatatype tag) { src with pollingState := state } 1 w) hgt hp rfl
  rw [hsrc, hd, htag]
  exact ⟨rfl, rfl, hp, rfl⟩

/-- A direct derived tag without a string follows the read. -/
theorem derived_of_direct {plc : PlcData} {started finished at' : Nat} {table : TagTable}
    (hitem : driver.polled item.name = some item) (ht : tag ∈ driver.tags)
    (hps : tag.pollSource = "") (hs : tag.cfg.sourceTag ≠ "")
    (hread : read = readItem driver.conn item (some plc) started finished at')
    (hw : Composes driver item read tag.name w)
    (hgs : Admits driver read now.steady tag.cfg.sourceTag)
    (hgt : Admits driver read now.steady tag.name)
    (hd : Direct driver item tag) (hstr : NotStringAlias tag) :
    ∃ snap, publishItem driver item read table now (driver.key tag.name) = some snap ∧
      FollowsRead driver read tag w snap := by
  have hnamed : read.Named item := hread ▸ readItem_named ..
  have harrays := readItem_arrayValues driver.conn item (some plc) started finished at'
  rw [← hread] at harrays
  obtain ⟨hen, v, hv, hlink⟩ := composes_derived hitem ht hps hs hw
  have hderived : tag ∈ driver.derivedOf tag.cfg.sourceTag :=
    DriverContext.mem_derivedOf.2 ⟨ht, hen, rfl, hs⟩
  cases hd with
  | scalar hc hsrc =>
    rw [hsrc] at hv hderived hgs
    obtain ⟨hok, hq, rfl⟩ := composes_scalar hitem hc hv
    rw [← hnamed.snapshot hc hok] at hgs
    exact ⟨_, publishItem_scalar_derived hnamed hc hok hderived,
      followsRead_derive { read.snapshot with pollRead := readStamp driver read } hstr
        hlink hgs hgt rfl hq harrays.1⟩
  | element hc he hp hn hi hsrc hlater =>
    rw [hsrc] at hv
    obtain ⟨hok, element, hget, hq, rfl⟩ := composes_element hc he hp hn hv
    have harray := harrays.2 element (List.mem_of_getElem? hget)
    rw [hsrc, hn] at hderived hgs
    rw [← hnamed.elements _ _ hget] at hgs
    exact ⟨_, publishItem_element_derived hnamed hc hok hi hget hderived hlater,
      followsRead_derive { element with pollRead := readStamp driver read } hstr
        hlink hgs hgt rfl hq harray⟩

/-- Where only generated elements have the names of elements, a composed tag that the item
publishes is direct. -/
theorem direct_of_published (hitem : driver.polled item.name = some item) (ht : tag ∈ driver.tags)
    (hps : tag.pollSource = "") (hs : tag.cfg.sourceTag ≠ "")
    (hclash : ∀ t ∈ driver.tags, ∀ i < item.cfg.elemCount, 1 < item.cfg.elemCount →
      t.name = elementName item.name i → t.pollSource = item.name)
    (hw : Composes driver item read tag.name w)
    (hpub : tag.name ∈ driver.publishedNames item) : Direct driver item tag := by
  obtain ⟨hmem, -, hparent⟩ := DriverContext.polled_eq_some hitem
  have hne : item.name ≠ "" := item.cfg.logicalName_ne
  -- the root is another tag
  have hroot : tag.name ≠ item.name := by
    intro hn
    rw [List.inj_on_of_nodup_map driver.names_nodup hmem ht hn.symm, TagRuntime.parent] at hparent
    simp [hps, hs] at hparent
  have hsource : ∀ name, tag.name ∈ (driver.derivedOf name).map TagRuntime.name →
      tag.cfg.sourceTag = name := by
    intro name h
    obtain ⟨t, htd, hn⟩ := List.mem_map.1 h
    obtain ⟨htm, -, hsrc, -⟩ := DriverContext.mem_derivedOf.1 htd
    rw [← List.inj_on_of_nodup_map driver.names_nodup htm ht hn, hsrc]
  unfold DriverContext.publishedNames DriverContext.withDerived at hpub
  split at hpub
  · rcases List.mem_cons.1 hpub with h | h
    · exact absurd h hroot
    · exact .scalar ‹_› (hsource _ h)
  · rename_i hc
    rw [not_le] at hc
    rcases List.mem_cons.1 hpub with h | h
    · exact absurd h hroot
    obtain ⟨i, hi, h⟩ := List.mem_flatMap.1 h
    rw [List.mem_range] at hi
    rcases List.mem_cons.1 h with h | h
    · rw [hclash tag ht i hi hc h] at hps
      exact absurd hps hne
    -- the source is a composed name and so a generated element
    have hsrc := hsource _ h
    obtain ⟨-, v, hv, -⟩ := composes_derived hitem ht hps hs hw
    obtain ⟨e, he, hn, hp⟩ : ∃ e ∈ driver.tags, e.name = tag.cfg.sourceTag ∧
        e.pollSource = item.name := by
      generalize hname : tag.cfg.sourceTag = name at hv
      cases hv with
      | scalar hc' => omega
      | element _ htm hps' => exact ⟨_, htm, rfl, hps'⟩
      | link _ htm _ hps' =>
        refine ⟨_, htm, rfl, hclash _ htm i hi hc ?_⟩
        rw [← hname, hsrc]
    refine .element hc he hp (hn.trans hsrc) hi hn.symm fun j _ hj hjn => ?_
    rw [hclash tag ht j hj hc hjn] at hps
    exact hne hps

/-- A derived tag that the item does not publish is not in the cache after the first read. -/
theorem nested_not_published (hread : read.Named item)
    (hpub : tag.name ∉ driver.publishedNames item) :
    publishItem driver item read (fun _ => none) now (driver.key tag.name) = none :=
  publishItem_other hread hpub

/-- A published string alias is bad. -/
theorem quality_of_stringAlias {table : TagTable} (hread : read.Named item)
    (hitem : driver.polled item.name = some item) (ht : tag ∈ driver.tags)
    (hps : tag.pollSource = "") (hs : tag.cfg.sourceTag ≠ "")
    (hw : Composes driver item read tag.name w) (hd : Direct driver item tag)
    (hstr : ¬ NotStringAlias tag) {snap : TagSnapshot}
    (h : publishItem driver item read table now (driver.key tag.name) = some snap) :
    snap.quality ≠ 1 := by
  obtain ⟨hen, v, hv, -⟩ := composes_derived hitem ht hps hs hw
  have hderived : tag ∈ driver.derivedOf tag.cfg.sourceTag :=
    DriverContext.mem_derivedOf.2 ⟨ht, hen, rfl, hs⟩
  cases hd with
  | scalar hc hsrc =>
    rw [hsrc] at hv hderived
    obtain ⟨hok, -⟩ := composes_scalar hitem hc hv
    rw [publishItem_scalar_derived hread hc hok hderived, Option.some.injEq] at h
    exact fun hq => stringAlias_not_good hstr (quality_of_applyPollCacheGate (h ▸ hq))
  | element hc he hp hn hi hsrc hlater =>
    rw [hsrc] at hv
    obtain ⟨hok, element, hget, -⟩ := composes_element hc he hp hn hv
    rw [hsrc, hn] at hderived
    rw [publishItem_element_derived hread hc hok hi hget hderived hlater, Option.some.injEq] at h
    exact fun hq => stringAlias_not_good hstr (quality_of_applyPollCacheGate (h ▸ hq))

end

/-- What is derived depends on the value, the block and the quality of the source. -/
theorem derive_congr {conn : ConnectionConfig} {src src' : TagSnapshot} (tag : TagRuntime)
    (hv : src.value = src'.value) (ha : src.arrayValues = src'.arrayValues)
    (hq : src.quality = src'.quality) :
    (derive conn src tag).value = (derive conn src' tag).value ∧
      (derive conn src tag).datatype = (derive conn src' tag).datatype ∧
      (derive conn src tag).quality = (derive conn src' tag).quality := by
  unfold derive
  cases tag.cfg.bit with
  | some bit =>
    have hx : extractBitFromSnapshot src bit = extractBitFromSnapshot src' bit := by
      rw [extractBitFromSnapshot, extractBitFromSnapshot, hv, ha]
    simp only [deriveBit, hx, hq]
    split <;> exact ⟨rfl, rfl, rfl⟩
  | none =>
    simp only [deriveAlias, hv, hq]
    split
    · exact ⟨rfl, rfl, rfl⟩
    · split <;> exact ⟨rfl, rfl, rfl⟩

/-! ## The result -/

/-- **Derived values follow their root** when the source of the tag is published by the read itself
and the tag is no string alias; and only then, unless a configured tag has the name of a block
element. Both derivations make the same of the same source. -/
theorem derived_follows_iff_direct {driver : DriverContext} {item : TagRuntime} (tag : TagRuntime)
    (hitem : driver.polled item.name = some item) (ht : tag ∈ driver.tags)
    (hps : tag.pollSource = "") (hs : tag.cfg.sourceTag ≠ "") {plc : PlcData}
    {started finished at' : Nat} {now : Instant} {w : TagValue}
    (hw : Composes driver item (readItem driver.conn item (some plc) started finished at')
      tag.name w)
    (hgs : Admits driver (readItem driver.conn item (some plc) started finished at') now.steady
      tag.cfg.sourceTag)
    (hgt : Admits driver (readItem driver.conn item (some plc) started finished at') now.steady
      tag.name) :
    let read := readItem driver.conn item (some plc) started finished at'
    let Follows := ∀ table, ∃ snap,
      publishItem driver item read table now (driver.key tag.name) = some snap ∧
        FollowsRead driver read tag w snap
    (Direct driver item tag ∧ NotStringAlias tag → Follows) ∧
    ((∀ t ∈ driver.tags, ∀ i < item.cfg.elemCount, 1 < item.cfg.elemCount →
        t.name = elementName item.name i → t.pollSource = item.name) →
      Follows → Direct driver item tag ∧ NotStringAlias tag) ∧
    ∀ src src' : TagSnapshot, src.value = src'.value → src.arrayValues = src'.arrayValues →
      src.quality = src'.quality →
      (derive driver.conn src tag).value = (derive driver.conn src' tag).value ∧
        (derive driver.conn src tag).datatype = (derive driver.conn src' tag).datatype ∧
        (derive driver.conn src tag).quality = (derive driver.conn src' tag).quality := by
  refine ⟨fun h table => derived_of_direct hitem ht hps hs rfl hw hgs hgt h.1 h.2,
    fun hclash hf => ?_, fun src src' hv ha hq => ?_⟩
  · have hnamed := readItem_named driver.conn item (some plc) started finished at'
    have hd : Direct driver item tag := by
      refine direct_of_published hitem ht hps hs hclash hw ?_
      by_contra hpub
      obtain ⟨snap, hsnap, -⟩ := hf fun _ => none
      rw [nested_not_published hnamed hpub] at hsnap
      cases hsnap
    refine ⟨hd, ?_⟩
    by_contra hstr
    obtain ⟨snap, hsnap, hfollow⟩ := hf fun _ => none
    exact quality_of_stringAlias hnamed hitem ht hps hs hw hd hstr hsnap hfollow.quality
  · exact derive_congr tag hv ha hq

end

/-! ## A chain of two aliases -/

section
attribute [local instance] intFloats

/-- A word. -/
def wordTag : TagRuntime := { cfg := { logicalName := "W", datatype := "int16" } }

/-- Its lowest bit, inverted. -/
def wordLowBit : TagRuntime :=
  { cfg := { logicalName := "B", datatype := "bool", sourceTag := "W", bit := some 0,
             invert := true } }

/-- An alias of it. -/
def wordAlias : TagRuntime :=
  { cfg := { logicalName := "X", datatype := "int16", sourceTag := "W" } }

/-- An alias of the alias. -/
def nestedAlias : TagRuntime :=
  { cfg := { logicalName := "Y", datatype := "int16", sourceTag := "X" } }

def chainDriver : DriverContext where
  freshnessEpoch := 1
  conn := { id := "C", driver := "ab_eip" }
  tags := [wordTag, wordLowBit, wordAlias, nestedAlias]
  names_nodup := by simp [TagRuntime.name, wordTag, wordLowBit, wordAlias, nestedAlias]

/-- A handle with one word. -/
def wordPlc (n : Int16) : PlcData where
  getInt8 _ := 0
  getBit _ := 0
  getInt16 _ := n
  getUint16 _ := 0
  getInt32 _ := 0
  getUint32 _ := 0
  getFloat32 _ := (0 : Int)
  getFloat64 _ := (0 : Int)
  getString _ := none

/-- The bit of the word follows it. -/
theorem lowBit_follows : ∃ snap,
    publishItem chainDriver wordTag
        (readItem chainDriver.conn wordTag (some (wordPlc 6)) 1 2 3) (fun _ => none) ⟨4, 4⟩
        (chainDriver.key "B") = some snap ∧
      FollowsRead chainDriver (readItem chainDriver.conn wordTag (some (wordPlc 6)) 1 2 3)
        wordLowBit (.bool true) snap := by
  have hroot : Composes chainDriver wordTag
      (readItem chainDriver.conn wordTag (some (wordPlc 6)) 1 2 3) "W" (.int16 6) :=
    .scalar (by decide) rfl rfl
  have hw : Composes chainDriver wordTag
      (readItem chainDriver.conn wordTag (some (wordPlc 6)) 1 2 3) "B" (.bool true) :=
    .link wordLowBit (by simp [chainDriver]) rfl rfl (by decide) hroot (by decide)
  have hnone : ∀ name, chainDriver.pollGates name = none := fun _ => rfl
  exact (derived_follows_iff_direct wordLowBit (by decide) (by simp [chainDriver]) rfl
    (by decide) hw (fun gate h => by rw [hnone] at h; cases h)
    (fun gate h => by rw [hnone] at h; cases h)).1 ⟨.scalar (by decide) rfl, fun h => by cases h⟩ _

/-- The alias of the alias does not. -/
theorem nestedAlias_stale :
    ¬ ∀ (driver : DriverContext) (item tag : TagRuntime) (plc : PlcData) (table : TagTable)
      (w : TagValue), driver.polled item.name = some item → tag ∈ driver.tags →
      tag.pollSource = "" → tag.cfg.sourceTag ≠ "" →
      Composes driver item (readItem driver.conn item (some plc) 1 2 3) tag.name w →
      (∀ name, Admits driver (readItem driver.conn item (some plc) 1 2 3) 4 name) →
      ∃ snap, publishItem driver item (readItem driver.conn item (some plc) 1 2 3) table ⟨4, 4⟩
          (driver.key tag.name) = some snap ∧
        FollowsRead driver (readItem driver.conn item (some plc) 1 2 3) tag w snap := by
  intro h
  have hroot : Composes chainDriver wordTag
      (readItem chainDriver.conn wordTag (some (wordPlc 6)) 1 2 3) "W" (.int16 6) :=
    .scalar (by decide) rfl rfl
  have halias : Composes chainDriver wordTag
      (readItem chainDriver.conn wordTag (some (wordPlc 6)) 1 2 3) "X" (.int16 6) :=
    .link wordAlias (by simp [chainDriver]) rfl rfl (by decide) hroot (by decide)
  have hnested : Composes chainDriver wordTag
      (readItem chainDriver.conn wordTag (some (wordPlc 6)) 1 2 3) "Y" (.int16 6) :=
    .link nestedAlias (by simp [chainDriver]) rfl rfl (by decide) halias (by decide)
  have hnone : ∀ name, chainDriver.pollGates name = none := fun _ => rfl
  obtain ⟨snap, hsnap, -⟩ := h chainDriver wordTag nestedAlias (wordPlc 6) (fun _ => none) _
    (by decide) (by simp [chainDriver]) rfl (by decide) hnested fun name gate hg => by rw [hnone] at hg; cases hg
  rw [nested_not_published (readItem_named ..) (by decide)] at hsnap
  cases hsnap

end

end OpcBridge
