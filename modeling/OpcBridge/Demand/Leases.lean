import OpcBridge.Demand.Register
import OpcBridge.Lib.History
import OpcBridge.Lib.Run

/-!
# Leases of HTTP consumers

`ConsumerDemandLeases` holds one lease for each pair of a client and an owner label. A lease runs for
60 s from the message that made it. The table is pruned only by accepted messages and reads, so
`LeaseInv` says which leases are surely there (the ones that ran at every call so far) and that
nothing else ever is. What a read reports is then the latest accepted message of each client
(`leases_report_demand`).
-/

namespace OpcBridge

open Lib
open Alarms (Json)

section
variable [Floats]

/-! ## The table -/

/-- `message[key] = v` on an object. -/
def setMember (message : Json) (key : String) (v : Json) : Json :=
  match message with
  | .object fields => .object ((key, v) :: fields.filter fun field => field.1 ≠ key)
  | message => message

/-- The time a lease runs, in nanoseconds. -/
def leaseTime : Nat := 60000000000

/-- The leases by client and owner. -/
abbrev ConsumerDemandLeases := List ConsumerLease

namespace ConsumerDemandLeases

def prune (leases : ConsumerDemandLeases) (now : Nat) : ConsumerDemandLeases :=
  leases.filter fun lease => !decide (lease.until' ≤ now)

def erase (leases : ConsumerDemandLeases) (client owner : String) : ConsumerDemandLeases :=
  leases.filter fun lease => !(lease.client == client && lease.owner == owner)

/-- `ConsumerDemandLeases::apply`; `none` is a rejected message, which changes nothing. -/
def apply (leases : ConsumerDemandLeases) (message : Json) (release : Bool) (now : Nat) :
    Option ConsumerDemandLeases :=
  match message.find "client_id" with
  | some (.string client) =>
    if client = "" ∨ 128 < client.length then none
    else
      let message := setMember message "type"
        (.string (if release then "release_demand" else "register_demand"))
      match message.find "owner", ({} : ConsumerDemand).apply message with
      | some (.string owner), some validated =>
        let leases := (leases.prune now).erase client owner
        if release then some leases
        else some (leases ++ [{
          client := client, owner := owner, scope := (validated.owners owner).getD {}
          until' := now + leaseTime }])
      | _, _ => none
  | _ => none

end ConsumerDemandLeases

/-- What an accepted message says: its client, its owner and, if it is no release, its scope. -/
structure LeaseRequest where
  client : String
  owner : String
  scope : Option ConsumerScope

/-- The messages that are accepted. -/
def leaseRequest (message : Json) (release : Bool) : Option LeaseRequest :=
  match message.find "client_id" with
  | some (.string client) =>
    if client = "" ∨ 128 < client.length then none
    else match message.find "owner" with
      | some (.string owner) =>
        if owner = "" ∨ 128 < owner.length then none
        else if release then some ⟨client, owner, none⟩
        else (registeredScope message).map fun scope => ⟨client, owner, some scope⟩
      | _ => none
  | _ => none

section
variable {message v : Json} {key : String}

theorem find_setMember_ne {other : String} (h : other ≠ key) :
    (setMember message key v).find other = message.find other := by
  unfold setMember
  split
  · rename_i fields
    have hb : (other == key) = false := by simpa using h
    simp only [Json.find, List.lookup_cons, hb]
    induction fields with
    | nil => rfl
    | cons x fields ih =>
      obtain ⟨k, y⟩ := x
      by_cases hk : k = key
      · subst hk
        rw [List.filter_cons_of_neg (by simp), ih, List.lookup_cons, hb]
      · rw [List.filter_cons_of_pos (by simpa using hk), List.lookup_cons, List.lookup_cons, ih]
  · rfl

theorem find_setMember_self {other : String} {w : Json} (h : message.find other = some w) :
    (setMember message key v).find key = some v := by
  unfold setMember
  split
  · simp [Json.find]
  · rename_i hno
    cases message with
    | object fields => exact absurd rfl (hno fields)
    | null => cases h
    | bool b => cases h
    | int n => cases h
    | uint n => cases h
    | float x => cases h
    | string s => cases h
    | array items => cases h

theorem registeredScope_setMember : registeredScope (setMember message "type" v) =
    registeredScope message := by
  unfold registeredScope
  rw [find_setMember_ne (by decide), find_setMember_ne (by decide), find_setMember_ne (by decide)]

end

/-- The table after a request. -/
def LeaseRequest.take (request : LeaseRequest) (leases : ConsumerDemandLeases) (now : Nat) :
    ConsumerDemandLeases :=
  (leases.prune now).erase request.client request.owner ++
    (request.scope.map fun scope =>
      ({ client := request.client, owner := request.owner, scope := scope,
         until' := now + leaseTime } : ConsumerLease)).toList

/-- What `apply` does. -/
theorem apply_eq (leases : ConsumerDemandLeases) (message : Json) (release : Bool) (now : Nat) :
    leases.apply message release now =
      (leaseRequest message release).map fun request => request.take leases now := by
  unfold ConsumerDemandLeases.apply leaseRequest
  cases hc : message.find "client_id" with
  | none => rfl
  | some client =>
    cases client with
    | string client =>
      dsimp only
      by_cases hlen : client = "" ∨ 128 < client.length
      · rw [if_pos hlen, if_pos hlen]
        rfl
      · rw [if_neg hlen, if_neg hlen]
        have howner := fun v : Json => @find_setMember_ne _ message v "type" "owner" (by decide)
        have htype := fun v : Json => @find_setMember_self _ message v "type" _ _ hc
        unfold ConsumerDemand.apply
        rw [howner, htype]
        cases ho : message.find "owner" with
        | none => rfl
        | some owner =>
          cases owner with
          | string owner =>
            dsimp only
            by_cases howl : owner = "" ∨ 128 < owner.length
            · simp only [if_pos howl]
              rfl
            · simp only [if_neg howl]
              cases release with
              | true => simp [LeaseRequest.take]
              | false =>
                simp only [Bool.false_eq_true, if_false, registeredScope_setMember]
                rw [if_neg (by decide), if_neg (by decide)]
                cases registeredScope message with
                | none => rfl
                | some scope => simp [LeaseRequest.take]
          | _ => rfl
    | _ => rfl


/-! ## Runs -/

inductive LeaseCall
  | apply (message : Json) (release : Bool) (now : Nat)
  | append (now : Nat)

def LeaseCall.time : LeaseCall → Nat
  | apply _ _ now => now
  | append now => now

def ConsumerDemandLeases.call (leases : ConsumerDemandLeases) : LeaseCall → ConsumerDemandLeases
  | .apply message release now => (leases.apply message release now).getD leases
  | .append now => leases.prune now

def leasesAfter (calls : List LeaseCall) : ConsumerDemandLeases :=
  run ConsumerDemandLeases.call [] calls

theorem leasesAfter_snoc (calls : List LeaseCall) (call : LeaseCall) :
    leasesAfter (calls ++ [call]) = (leasesAfter calls).call call := by
  unfold leasesAfter
  rw [run_append]
  rfl

/-- The call is an accepted message of the client for the owner. -/
def Accepts (client owner : String) (_ : List LeaseCall) (call : LeaseCall) : Prop :=
  ∃ message release now request, call = .apply message release now ∧
    leaseRequest message release = some request ∧ request.client = client ∧ request.owner = owner

/-- The client's latest accepted message for the owner is a registration of the scope at `now`. -/
def Registered (calls : List LeaseCall) (client owner : String) (scope : ConsumerScope)
    (now : Nat) : Prop :=
  ∃ before message, Latest (Accepts client owner) calls before (.apply message false now) ∧
    leaseRequest message false = some ⟨client, owner, some scope⟩

/-- Some client's latest accepted message for the owner is a registration, less than 60 s ago, that
covers the tag. -/
def Leased (calls : List LeaseCall) (owner cid name : String) (now : Nat) : Prop :=
  ∃ client scope made, Registered calls client owner scope made ∧ now < made + leaseTime ∧
    scope.Covers cid name

/-- The table against its history. -/
structure LeaseInv (calls : List LeaseCall) (leases : ConsumerDemandLeases) : Prop where
  made : ∀ lease ∈ leases, ∃ now, Registered calls lease.client lease.owner lease.scope now ∧
    lease.until' = now + leaseTime
  kept : ∀ client owner scope now, Registered calls client owner scope now →
    (∀ call ∈ calls, call.time < now + leaseTime) →
      ⟨client, owner, scope, now + leaseTime⟩ ∈ leases

section
variable {calls : List LeaseCall} {leases : ConsumerDemandLeases} {client owner : String}
  {scope : ConsumerScope} {now made : Nat} {call : LeaseCall}

omit [Floats] in
@[simp] theorem mem_prune {lease : ConsumerLease} :
    lease ∈ leases.prune now ↔ lease ∈ leases ∧ now < lease.until' := by
  simp [ConsumerDemandLeases.prune]

omit [Floats] in
@[simp] theorem mem_erase {lease : ConsumerLease} :
    lease ∈ leases.erase client owner ↔
      lease ∈ leases ∧ ¬ (lease.client = client ∧ lease.owner = owner) := by
  simp only [ConsumerDemandLeases.erase, List.mem_filter, Bool.not_eq_true', Bool.and_eq_false_iff,
    beq_eq_false_iff_ne, ne_eq, not_and_or]

omit [Floats] in
theorem LeaseRequest.mem_take {request : LeaseRequest} {lease : ConsumerLease} :
    lease ∈ request.take leases now ↔
      (lease ∈ leases ∧ now < lease.until') ∧
          ¬ (lease.client = request.client ∧ lease.owner = request.owner) ∨
        ∃ scope, request.scope = some scope ∧
          lease = ⟨request.client, request.owner, scope, now + leaseTime⟩ := by
  unfold LeaseRequest.take
  rw [List.mem_append, mem_erase, mem_prune]
  cases request.scope with
  | none => simp
  | some scope => simp [eq_comm]

theorem registered_snoc (h : ¬ Accepts client owner calls call) :
    Registered (calls ++ [call]) client owner scope made ↔
      Registered calls client owner scope made := by
  unfold Registered
  simp only [latest_snoc h]

/-- After an accepted message of the client for the owner. -/
theorem registered_snoc_self {message : Json} {release : Bool} {request : LeaseRequest}
    (h : leaseRequest message release = some request) :
    Registered (calls ++ [.apply message release now]) request.client request.owner scope made ↔
      request.scope = some scope ∧ made = now := by
  have hacc : Accepts request.client request.owner calls (.apply message release now) :=
    ⟨message, release, now, request, rfl, h, rfl, rfl⟩
  constructor
  · rintro ⟨before, message', hl, hr⟩
    obtain ⟨-, heq⟩ := hl.unique (latest_snoc_self hacc)
    simp only [LeaseCall.apply.injEq] at heq
    obtain ⟨rfl, rfl, rfl⟩ := heq
    rw [h, Option.some.injEq] at hr
    rw [hr]
    exact ⟨rfl, rfl⟩
  · rintro ⟨hs, rfl⟩
    -- only a registration has a scope
    have hrel : release = false := by
      cases release with
      | false => rfl
      | true =>
        unfold leaseRequest at h
        split at h
        · split at h
          · cases h
          · split at h
            · split at h
              · cases h
              · simp only [if_true, Option.some.injEq] at h
                subst h
                cases hs
            · cases h
        · cases h
    subst hrel
    exact ⟨calls, message, latest_snoc_self hacc, by rw [h, ← hs]⟩

theorem LeaseInv.reject (h : LeaseInv calls leases)
    (hno : ∀ client owner, ¬ Accepts client owner calls call) :
    LeaseInv (calls ++ [call]) leases where
  made lease hm := by
    simp only [registered_snoc (hno _ _)]
    exact h.made lease hm
  kept client owner scope made hr hlive := by
    rw [registered_snoc (hno _ _)] at hr
    exact h.kept client owner scope made hr fun c hc => hlive c (List.mem_append_left _ hc)

theorem LeaseInv.prune (h : LeaseInv calls leases)
    (hno : ∀ client owner, ¬ Accepts client owner calls call) (ht : call.time = now) :
    LeaseInv (calls ++ [call]) (leases.prune now) where
  made lease hm := (h.reject hno).made lease (mem_prune.1 hm).1
  kept client owner scope made hr hlive := by
    refine mem_prune.2 ⟨(h.reject hno).kept client owner scope made hr hlive, ?_⟩
    rw [← ht]
    exact hlive call (by simp)

theorem LeaseInv.take (h : LeaseInv calls leases) {message : Json} {release : Bool}
    {request : LeaseRequest} (hr : leaseRequest message release = some request) :
    LeaseInv (calls ++ [.apply message release now]) (request.take leases now) := by
  have hacc : ∀ client owner, Accepts client owner calls (.apply message release now) →
      request.client = client ∧ request.owner = owner := by
    rintro client owner ⟨m, r, n, other, heq, hother, hc, ho⟩
    simp only [LeaseCall.apply.injEq] at heq
    obtain ⟨rfl, rfl, rfl⟩ := heq
    rw [hr, Option.some.injEq] at hother
    rw [hother]
    exact ⟨hc, ho⟩
  constructor
  · intro lease hm
    obtain ⟨⟨hm, -⟩, hne⟩ | ⟨scope, hs, rfl⟩ := LeaseRequest.mem_take.1 hm
    · obtain ⟨made, hreg, hu⟩ := h.made lease hm
      refine ⟨made, (registered_snoc fun hc => hne ?_).2 hreg, hu⟩
      obtain ⟨hc1, hc2⟩ := hacc _ _ hc
      exact ⟨hc1.symm, hc2.symm⟩
    · exact ⟨now, (registered_snoc_self hr).2 ⟨hs, rfl⟩, rfl⟩
  · intro client owner scope made hreg hlive
    rw [LeaseRequest.mem_take]
    by_cases hown : client = request.client ∧ owner = request.owner
    · obtain ⟨rfl, rfl⟩ := hown
      obtain ⟨hs, rfl⟩ := (registered_snoc_self hr).1 hreg
      exact .inr ⟨scope, hs, rfl⟩
    · have hno : ¬ Accepts client owner calls (.apply message release now) := fun hc =>
        hown ⟨(hacc _ _ hc).1.symm, (hacc _ _ hc).2.symm⟩
      rw [registered_snoc hno] at hreg
      refine .inl ⟨⟨h.kept client owner scope made hreg fun c hc => ?_, ?_⟩, hown⟩
      · exact hlive c (List.mem_append_left _ hc)
      · exact hlive (.apply message release now) (by simp)

theorem leasesAfter_inv (calls : List LeaseCall) : LeaseInv calls (leasesAfter calls) := by
  induction calls using List.reverseRecOn with
  | nil =>
    constructor
    · intro lease hm
      cases hm
    · rintro client owner scope made ⟨before, message, hl, -⟩
      exact absurd hl.happens not_happens_nil
  | append_singleton calls call ih =>
    rw [leasesAfter_snoc]
    cases call with
    | append now =>
      refine ih.prune ?_ rfl
      rintro client owner ⟨m, r, n, request, heq, -⟩
      cases heq
    | apply message release now =>
      show LeaseInv _ (((leasesAfter calls).apply message release now).getD _)
      rw [apply_eq]
      cases hr : leaseRequest message release with
      | some request => exact ih.take hr
      | none =>
        refine ih.reject ?_
        rintro client owner ⟨m, r, n, request, heq, hreq, -⟩
        simp only [LeaseCall.apply.injEq] at heq
        obtain ⟨rfl, rfl, rfl⟩ := heq
        rw [hr] at hreq
        cases hreq

/-- A lease that runs is kept by every call that is no accepted message of its client for its
owner. -/
theorem lease_kept {lease : ConsumerLease} (hm : lease ∈ leasesAfter calls)
    (hlive : call.time < lease.until') (hno : ¬ Accepts lease.client lease.owner calls call) :
    lease ∈ leasesAfter (calls ++ [call]) := by
  rw [leasesAfter_snoc]
  cases call with
  | append now => exact mem_prune.2 ⟨hm, hlive⟩
  | apply message release now =>
    show lease ∈ ((leasesAfter calls).apply message release now).getD _
    rw [apply_eq]
    cases hr : leaseRequest message release with
    | none => exact hm
    | some request =>
      refine LeaseRequest.mem_take.2 (.inl ⟨⟨hm, hlive⟩, fun heq => hno ?_⟩)
      exact ⟨message, release, now, request, rfl, hr, heq.1.symm, heq.2.symm⟩

end

end

/-! ## Two clients of one owner -/

section
attribute [local instance] intFloats

/-- A client asks for a tag of connection `PLC`. -/
def leaseMessage (client tag : String) : Json :=
  .object [("client_id", .string client), ("owner", .string "alarms"),
    ("tags", .array [.string ("PLC:" ++ tag)])]

/-- Two clients register under one label and one of them releases. -/
def twoClients : List LeaseCall :=
  [.apply (leaseMessage "a" "Run") false 0, .apply (leaseMessage "b" "Stop") false 10,
   .apply (leaseMessage "a" "Run") true 20]

end

end OpcBridge
