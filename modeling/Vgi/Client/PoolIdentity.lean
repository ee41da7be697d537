import Mathlib.Data.List.Perm.Subperm
import Vgi.Client.Pool

/-! A pooled connection belongs to one borrower at a time and keeps its identity. -/

namespace Vgi.Client

open Lib List Pool Option Nat

namespace Transport

def WrapsHttp : Transport → Prop
  | .retry inner => ∀ reusable, inner.underlying ≠ .stream reusable
  | _ => True

variable {transport : Transport}

/-- HTTP transports never report that they are not reusable, so the wrapper hides nothing. -/
theorem isReusable_underlying (wraps : transport.WrapsHttp)
    : transport.underlying.isReusable = transport.isReusable := by
  cases transport with
  | stream reusable => rfl
  | http => rfl
  | authenticated auth => rfl
  | retry inner =>
    have all (inner : Transport) (other : ∀ reusable, inner.underlying ≠ .stream reusable)
        : inner.underlying.isReusable = true := by
      induction inner with
      | stream reusable => exact absurd rfl (other reusable)
      | http => rfl
      | authenticated auth => rfl
      | retry inner ih => exact ih other
    exact all inner wraps

@[simp] theorem auth?_report (transport : Transport) (reusable)
    : (transport.report reusable).auth? = transport.auth? := by
  induction transport with
  | retry inner ih => exact ih
  | _ => rfl

theorem WrapsHttp.report (wraps : transport.WrapsHttp) (reusable)
    : (transport.report reusable).WrapsHttp := by
  have underlying (inner : Transport) (other : ∀ told, inner.underlying ≠ .stream told)
      : ∀ told, (inner.report reusable).underlying ≠ .stream told := by
    induction inner with
    | stream told => exact absurd rfl (other told)
    | http | authenticated auth => exact fun _ => nofun
    | retry inner ih => exact ih other
  cases transport with
  | retry inner => exact underlying inner wraps
  | _ => trivial

end Transport

theorem wrapsHttp_connectLocation (location) : (connectLocation location).WrapsHttp := by
  cases location with
  | http | httpi => exact fun _ => nofun
  | _ => trivial

theorem auth?_connectLocation (location) : (connectLocation location).auth? = none := by
  cases location <;> rfl

def Idle.expired (timeout : Nat) (now : Instant) (entry : Idle) : Bool :=
  timeout < now - entry.since

/-- The expired connections that are in front in the bucket of the key. -/
def expiredFirst (timeout : Nat) (now : Instant) (key : PoolKey) (idle : List Idle) : List Idle :=
  (idle.filter (·.key = key)).takeWhile (·.expired timeout now)

variable {idle : List Idle}

/-- The entries are the one that is handed out, those that are closed and those that are left. -/
theorem takeIdle_spec {timeout now key found left closed}
    (taken : takeIdle timeout now key idle = (found, left, closed))
    : ∃ handed : Option Idle, found = handed.map (·.client)
      ∧ (∀ entry ∈ handed, entry.key = key ∧ entry.expired timeout now = false)
      ∧ closed = (expiredFirst timeout now key idle).length ∧ left.Sublist idle
      ∧ idle.Perm (handed.toList ++ (expiredFirst timeout now key idle ++ left)) := by
  induction idle generalizing found left closed with
  | nil =>
    cases taken
    exact ⟨none, rfl, by simp, rfl, .refl _, .refl _⟩
  | cons entry rest ih =>
    rw [takeIdle] at taken
    rw [expiredFirst]
    by_cases same : entry.key = key
    · rw [if_pos same] at taken
      rw [filter_cons_of_pos (by simpa using same)]
      split at taken
      next live =>
        cases taken
        have live : entry.expired timeout now = false := by simpa [Idle.expired] using live
        refine ⟨some entry, rfl, ?_, ?_, sublist_cons_self _ _, ?_⟩
        · rintro _ ⟨⟩
          exact ⟨same, live⟩
        · simp [live]
        · simp [live]
      next dead =>
        cases taken
        obtain ⟨handed, is, alive, count, sublist, perm⟩ := ih rfl
        have dead : entry.expired timeout now = true := decide_eq_true (Nat.lt_of_not_le dead)
        rw [takeWhile_cons_of_pos dead]
        exact ⟨handed, is, alive, congrArg (· + 1) count, sublist.cons _,
          (perm.cons entry).trans perm_middle.symm⟩
    · rw [if_neg same] at taken
      cases taken
      obtain ⟨handed, is, alive, count, sublist, perm⟩ := ih rfl
      rw [filter_cons_of_neg (by simpa using same)]
      refine ⟨handed, is, alive, count, sublist.cons_cons _, (perm.cons entry).trans ?_⟩
      rw [← append_assoc, ← append_assoc]
      exact perm_middle.symm

namespace Pool

variable {pool after : Pool} {index : Nat} {checkout : PooledClient}

def ids (pool : Pool) : List Nat :=
  pool.idle.map (·.client.id) ++ pool.checkouts.filterMap (·.map (·.client.id))

theorem exists_set {α} {slots : List α} {slot} (found : slots[index]? = some slot)
    : ∃ before after, slots = before ++ slot :: after
      ∧ ∀ next, slots.set index next = before ++ next :: after := by
  obtain ⟨inside, rfl⟩ := List.getElem?_eq_some_iff.mp found
  refine ⟨slots.take index, slots.drop (index + 1), by simp, fun next => ?_⟩
  rw [set_eq_take_append_cons_drop, if_pos inside]

/-- A dropped checkout leaves the others. -/
theorem filterMap_set_none {slots : List (Option PooledClient)}
    (found : slots[index]? = some (some checkout))
    : (slots.filterMap (·.map (·.client.id))).Perm
        (checkout.client.id :: (slots.set index none).filterMap (·.map (·.client.id))) := by
  obtain ⟨before, after, is, sets⟩ := exists_set found
  rw [sets, is]
  simp

theorem filterMap_set_some {slots : List (Option PooledClient)} {next : PooledClient}
    (found : slots[index]? = some (some checkout)) (same : next.client.id = checkout.client.id)
    : (slots.set index (some next)).filterMap (·.map (·.client.id))
      = slots.filterMap (·.map (·.client.id)) := by
  obtain ⟨before, after, is, sets⟩ := exists_set found
  rw [sets, is]
  simp [same]

/-- The connection is what its key says, and if it is wrapped it speaks HTTP. -/
structure Fits (pool : Pool) (key : PoolKey) (client : VgiClient) : Prop where
  key : key = pool.keyOf client.opened
  keeps : client.transport.auth? = client.opened.auth
  allocated : ∀ auth ∈ client.opened.auth, auth < pool.auths.length
  wraps : client.transport.WrapsHttp

structure Sound (pool : Pool) : Prop where
  once : pool.ids.Nodup
  fresh : ∀ id, id ∈ pool.ids ∨ id ∈ pool.spoiled → id < pool.opened
  gone : ∀ id ∈ pool.spoiled, id ∉ pool.ids
  filed : ∀ entry ∈ pool.idle, pool.Fits entry.key entry.client
  out : ∀ checkout, some checkout ∈ pool.checkouts →
    pool.Fits checkout.key checkout.client ∧ checkout.client.opened = checkout.demand
  bound : pool.idle.length ≤ pool.config.maxIdle
  distinct : ∀ {one other}, pool.isLive one → pool.isLive other →
    pool.auths[one]?.map (·.address) = pool.auths[other]?.map (·.address) →
    one < pool.auths.length → one = other

/-- What a step on the slots keeps: connections come from slots of before, or are new. -/
theorem Sound.slots (sound : pool.Sound) (config : after.config = pool.config)
    (auths : after.auths = pool.auths) (grown : pool.opened ≤ after.opened)
    (moved : ∃ new, after.ids.Subperm (new ++ pool.ids) ∧ new.Nodup
      ∧ ∀ id ∈ new, pool.opened ≤ id ∧ id < after.opened)
    (spoiled : ∀ id ∈ after.spoiled, id ∉ after.ids ∧ id < after.opened)
    (filed : ∀ entry ∈ after.idle, pool.Fits entry.key entry.client)
    (out : ∀ checkout, some checkout ∈ after.checkouts →
      pool.Fits checkout.key checkout.client ∧ checkout.client.opened = checkout.demand)
    (bound : after.idle.length ≤ pool.config.maxIdle)
    (live : ∀ auth, after.isLive auth → pool.isLive auth)
    : after.Sound := by
  obtain ⟨new, moved, once, within⟩ := moved
  have fits {key : PoolKey} {client : VgiClient} (fits : pool.Fits key client)
      : after.Fits key client := by
    refine ⟨fits.key.trans ?_, fits.keeps, auths ▸ fits.allocated, fits.wraps⟩
    simp only [keyOf, auths]
  have member {id : Nat} (is : id ∈ after.ids) : id ∈ new ∨ id ∈ pool.ids :=
    mem_append.mp (moved.subset is)
  refine ⟨?_, ?_, fun id is => (spoiled id is).1, fun entry is => fits (filed entry is),
    fun checkout is => ⟨fits (out checkout is).1, (out checkout is).2⟩, config ▸ bound, ?_⟩
  · obtain ⟨kept, perm, sublist⟩ := moved
    refine perm.nodup_iff.mp (sublist.nodup ?_)
    refine nodup_append.mpr ⟨once, sound.once, ?_⟩
    rintro id isNew _ isOld rfl
    exact Nat.lt_irrefl _ (Nat.lt_of_lt_of_le (sound.fresh id (.inl isOld)) (within id isNew).1)
  · rintro id (is | is)
    · rcases member is with isNew | isOld
      · exact (within id isNew).2
      · exact Nat.lt_of_lt_of_le (sound.fresh id (.inl isOld)) grown
    · exact (spoiled id is).2
  · intro one other oneLive otherLive same inside
    rw [auths] at same inside
    exact sound.distinct (live one oneLive) (live other otherLive) same inside

/-- The connections that an acquire closes. -/
def closedBy (pool : Pool) (demand : Demand) (now : Instant) : List Idle :=
  if pool.config.poolingEnabled then
    expiredFirst pool.config.idleTimeout now (pool.keyOf demand) pool.idle
  else []

variable {auth : AuthId} {demand : Demand} {client : VgiClient} {action : PoolAction} {entry : Idle}

theorem Fits.isLive_of_idle (fits : pool.Fits entry.key entry.client)
    (member : entry ∈ pool.idle) (is : entry.client.opened.auth = some auth)
    : pool.isLive auth :=
  .inr (.inl ⟨entry, member, fits.keeps.trans is⟩)

/-- An idle connection under the key of a demand was opened for that demand: both auth objects
are live, so one address means one object.
-/
theorem Sound.opened_eq (sound : pool.Sound) (member : entry ∈ pool.idle)
    (same : entry.key = pool.keyOf demand)
    (live : ∀ auth ∈ demand.auth, pool.isLive auth ∧ auth < pool.auths.length)
    : entry.client.opened = demand := by
  have fits := sound.filed entry member
  have keys := same.symm.trans fits.key
  obtain ⟨location, options, auth⟩ := demand
  rcases is : entry.client.opened with ⟨openedFor, given, holder⟩
  rw [is] at keys
  simp only [keyOf, PoolKey.mk.injEq] at keys
  obtain ⟨rfl, rfl, scope⟩ := keys
  have address {auth : AuthId} (inside : auth < pool.auths.length)
      : ∃ address, pool.auths[auth]?.map (·.address) = some address :=
    ⟨_, by rw [getElem?_eq_getElem inside]; rfl⟩
  congr 1
  cases auth with
  | none =>
    cases holder with
    | none => rfl
    | some holder =>
      obtain ⟨_, found⟩ := address (fits.allocated holder (by rw [is]; rfl))
      simp [found] at scope
  | some auth =>
    obtain ⟨alive, inside⟩ := live auth rfl
    cases holder with
    | none =>
      obtain ⟨_, found⟩ := address inside
      simp [found] at scope
    | some holder =>
      have held := fits.isLive_of_idle member (by rw [is])
      exact congrArg some (sound.distinct alive held scope inside).symm

theorem ids_checkOut (pool : Pool) (demand client)
    : (pool.checkOut demand client).ids = pool.ids ++ [client.id] := by
  simp [checkOut, ids]

/-- A connection that is handed out keeps what it keeps alive. -/
theorem isLive_checkOut (live : (pool.checkOut demand client).isLive auth)
    : pool.isLive auth ∨ client.transport.auth? = some auth := by
  rcases live with handle | idle | ⟨checkout, member, keeps⟩
  · exact .inl (.inl handle)
  · exact .inl (.inr (.inl idle))
  · simp only [checkOut, mem_append, mem_singleton, some.injEq] at member
    rcases member with earlier | rfl
    · exact .inl (.inr (.inr ⟨checkout, earlier, keeps⟩))
    · exact .inr keeps

variable {counters : Counters} {opened : Nat} (sublist : idle.Sublist pool.idle)

include sublist

/-- The pool without the idle connections that `take_idle` closed or took. -/
theorem ids_idle : Subperm { pool with idle, counters, opened }.ids pool.ids :=
  ((sublist.map _).append (.refl _)).subperm

omit sublist in
theorem ids_hit
    (kept : List.Subperm ((entry :: idle).map (·.client.id)) (pool.idle.map (·.client.id)))
    : List.Subperm ({ pool with idle, counters }.checkOut demand entry.client).ids pool.ids := by
  rw [ids_checkOut]
  refine (perm_append_singleton _ _).subperm.trans ?_
  exact kept.append (.refl (pool.checkouts.filterMap (·.map (·.client.id))))

theorem ids_miss : Subperm ({ pool with idle, counters, opened }.checkOut demand client).ids
        ([client.id] ++ pool.ids) := by
  rw [ids_checkOut]
  refine (perm_append_singleton _ _).subperm.trans ?_
  have kept : Subperm { pool with idle, counters, opened }.ids pool.ids := ids_idle sublist
  exact (subperm_cons client.id).mpr kept

/-- Closing idle connections frees auth objects, and makes none live. -/
theorem isLive_idle (live : { pool with idle, counters, opened }.isLive auth)
    : pool.isLive auth := by
  rcases live with handle | ⟨entry, member, keeps⟩ | checkout
  · exact .inl handle
  · exact .inr (.inl ⟨entry, sublist.subset member, keeps⟩)
  · exact .inr (.inr checkout)

variable (sound : pool.Sound)

include sound

/-- Fewer idle connections. -/
theorem Sound.closes : { pool with idle, counters }.Sound := by
  refine sound.slots rfl rfl (Nat.le_refl _)
    ⟨[], ids_idle sublist, nodup_nil, nofun⟩
    (fun id is => ⟨fun among => sound.gone id is ((ids_idle sublist).subset among),
      sound.fresh id (.inr is)⟩)
    (fun entry is => sound.filed entry (sublist.subset is)) sound.out
    (Nat.le_trans sublist.length_le sound.bound) fun auth live => ?_
  exact isLive_idle sublist live

omit sublist

omit sound in
/-- What an acquire finds. -/
theorem taken_spec {now found left closed}
    (taken : (if pool.config.poolingEnabled then
        takeIdle pool.config.idleTimeout now (pool.keyOf demand) pool.idle
      else (none, pool.idle, 0)) = (found, left, closed))
    : ∃ handed : Option Idle, found = handed.map (·.client)
      ∧ (∀ entry ∈ handed, entry.key = pool.keyOf demand
        ∧ entry.expired pool.config.idleTimeout now = false)
      ∧ closed = (pool.closedBy demand now).length ∧ left.Sublist pool.idle
      ∧ pool.idle.Perm (handed.toList ++ (pool.closedBy demand now ++ left)) := by
  unfold closedBy
  split at taken
  next enabled =>
    rw [if_pos enabled]
    exact takeIdle_spec taken
  next disabled =>
    cases taken
    rw [if_neg disabled]
    exact ⟨none, rfl, by simp, rfl, .refl _, .refl _⟩

/-- Acquiring takes an idle connection of the demanded kind out of its slot, or opens one with a
new id.
-/
theorem Sound.acquireWith {connect} (now)
    (live : ∀ auth ∈ demand.auth, pool.isLive auth ∧ auth < pool.auths.length)
    (connects : ∀ transport, connect = .ok transport → transport.auth? = demand.auth
      ∧ transport.WrapsHttp)
    : (pool.acquireWith demand now connect).Sound := by
  unfold Pool.acquireWith
  split
  rename_i found left closed taken
  obtain ⟨handed, rfl, ours, -, sublist, perm⟩ := taken_spec taken
  cases handed with
  | some entry =>
    simp only [map_some]
    -- The connection moves from its idle slot to the caller, so no id is there twice.
    have same := (ours entry rfl).1
    have member : entry ∈ pool.idle := perm.symm.subset mem_cons_self
    have kept : Subperm ((entry :: left).map (·.client.id)) (pool.idle.map (·.client.id)) :=
      (((sublist_append_right _ left).cons_cons entry).map _).subperm.trans
        (perm.symm.map _).subperm
    have fits := sound.filed entry member
    refine sound.slots rfl rfl (Nat.le_refl _)
      ⟨[], ids_hit kept, nodup_nil, nofun⟩
      (fun id is => ⟨fun among => sound.gone id is ((ids_hit kept).subset among),
        sound.fresh id (.inr is)⟩)
      (fun other is => sound.filed other (sublist.subset is)) ?_
      (Nat.le_trans sublist.length_le sound.bound) fun auth alive => ?_
    · intro checkout is
      simp only [checkOut, mem_append, mem_singleton, some.injEq] at is
      rcases is with earlier | rfl
      · exact sound.out checkout earlier
      · exact ⟨{ fits with key := same.symm.trans fits.key }, sound.opened_eq member same live⟩
    · rcases isLive_checkOut alive with before | keeps
      · exact isLive_idle sublist before
      · exact .inr (.inl ⟨entry, member, keeps⟩)
  | none =>
    simp only [map_none]
    cases connect with
    | error failure => exact sound.closes sublist
    | ok transport =>
      -- A new connection has the next id, which no slot and no spoiled one has.
      obtain ⟨keeps, wraps⟩ := connects transport rfl
      refine sound.slots rfl rfl (le_succ _)
        ⟨[pool.opened], ids_miss sublist, pairwise_singleton _ _, fun id is => ?_⟩
        (fun id is => ?_) (fun other is => sound.filed other (sublist.subset is)) ?_
        (Nat.le_trans sublist.length_le sound.bound) fun auth alive => ?_
      · cases mem_singleton.mp is
        exact ⟨Nat.le_refl _, lt_succ_self _⟩
      · have old := sound.fresh id (.inr is)
        refine ⟨fun among => ?_, lt_succ_of_lt old⟩
        rcases mem_append.mp ((ids_miss sublist).subset among) with new | before
        · cases mem_singleton.mp new
          exact Nat.lt_irrefl _ old
        · exact sound.gone id is before
      · intro checkout is
        simp only [checkOut, mem_append, mem_singleton, some.injEq] at is
        rcases is with earlier | rfl
        · exact sound.out checkout earlier
        · exact ⟨⟨rfl, keeps, fun auth is => (live auth is).2, wraps⟩, rfl⟩
      · rcases isLive_checkOut alive with before | holds
        · exact isLive_idle sublist before
        · exact (live auth (keeps.symm.trans holds)).1

variable (found : pool.checkouts[index]? = some (some checkout))

include found

theorem Sound.setCheckout {next}
    (key : next.key = checkout.key)
    (demand : next.demand = checkout.demand) (id : next.client.id = checkout.client.id)
    (opened : next.client.opened = checkout.client.opened)
    (keeps : next.client.transport.auth? = checkout.client.transport.auth?)
    (wraps : next.client.transport.WrapsHttp)
    : { pool with checkouts := pool.checkouts.set index (some next) }.Sound := by
  have ids : ({ pool with checkouts := pool.checkouts.set index (some next) }).ids = pool.ids := by
    simp only [ids, filterMap_set_some found id]
  have member := mem_of_getElem? found
  refine sound.slots rfl rfl (Nat.le_refl _)
    ⟨[], by rw [ids]; exact .refl _, nodup_nil, nofun⟩
    (fun other is => by rw [ids]; exact ⟨sound.gone other is, sound.fresh other (.inr is)⟩)
    sound.filed (fun other is => ?_) sound.bound fun auth live => ?_
  · rcases mem_or_eq_of_mem_set is with before | same
    · exact sound.out other before
    · cases same
      obtain ⟨fits, asked⟩ := sound.out checkout member
      refine ⟨⟨?_, ?_, ?_, wraps⟩, ?_⟩
      · rw [key, opened]
        exact fits.key
      · rw [keeps, opened]
        exact fits.keeps
      · rw [opened]
        exact fits.allocated
      · rw [opened, demand]
        exact asked
  · rcases live with handle | idle | ⟨other, is, holds⟩
    · exact .inl handle
    · exact .inr (.inl idle)
    · rcases mem_or_eq_of_mem_set is with before | same
      · exact .inr (.inr ⟨other, before, holds⟩)
      · cases same
        exact .inr (.inr ⟨checkout, member, keeps ▸ holds⟩)

omit sound in
/-- The connection of a dropped checkout and the ones in the other slots. -/
theorem perm_ids_drop : pool.ids.Perm (checkout.client.id :: (pool.idle.map (·.client.id)
        ++ (pool.checkouts.set index none).filterMap (·.map (·.client.id)))) :=
  ((filterMap_set_none found).append_left _).trans perm_middle

omit sound found in
theorem mem_set_none {slots : List (Option PooledClient)} {other}
    (is : some other ∈ slots.set index none) : some other ∈ slots := by
  rcases mem_or_eq_of_mem_set is with before | same
  · exact before
  · cases same

/-- The connection of the checkout is closed. -/
theorem Sound.closesCheckout {spoiled}
    (among : ∀ id ∈ spoiled, id = checkout.client.id ∨ id ∈ pool.spoiled)
    : { pool with checkouts := pool.checkouts.set index none, spoiled, counters }.Sound := by
  have perm := perm_ids_drop found
  have apart := (nodup_cons.mp (perm.nodup_iff.mp sound.once)).1
  have moved : Subperm (pool.idle.map (·.client.id)
      ++ (pool.checkouts.set index none).filterMap (·.map (·.client.id))) pool.ids :=
    (sublist_cons_self _ _).subperm.trans perm.symm.subperm
  refine sound.slots rfl rfl (Nat.le_refl _)
    ⟨[], moved, nodup_nil, nofun⟩ (fun id is => ?_) sound.filed
    (fun other is => sound.out other (mem_set_none is)) sound.bound fun auth live => ?_
  · rcases among id is with rfl | before
    · exact ⟨apart, sound.fresh _ (.inl (perm.symm.subset mem_cons_self))⟩
    · exact ⟨fun inside => sound.gone id before (moved.subset inside), sound.fresh id (.inr before)⟩
  · rcases live with handle | idle | ⟨other, is, holds⟩
    · exact .inl handle
    · exact .inr (.inl idle)
    · exact .inr (.inr ⟨other, mem_set_none is, holds⟩)

/-- The connection of the checkout goes back to an idle slot. -/
theorem Sound.returns (now) (room : pool.idle.length < pool.config.maxIdle)
    : { pool with
        checkouts := pool.checkouts.set index none
        idle := ⟨checkout.key, checkout.client, now⟩ :: pool.idle }.Sound := by
  have member := mem_of_getElem? found
  have moved : Subperm (checkout.client.id :: (pool.idle.map (·.client.id)
      ++ (pool.checkouts.set index none).filterMap (·.map (·.client.id)))) pool.ids :=
    (perm_ids_drop found).symm.subperm
  refine sound.slots rfl rfl (Nat.le_refl _)
    ⟨[], moved, nodup_nil, nofun⟩
    (fun id is => ⟨fun inside => sound.gone id is (moved.subset inside),
      sound.fresh id (.inr is)⟩) (fun entry is => ?_)
    (fun other is => sound.out other (mem_set_none is)) room fun auth live => ?_
  · rcases mem_cons.mp is with rfl | before
    · exact (sound.out checkout member).1
    · exact sound.filed entry before
  · rcases live with handle | ⟨entry, is, holds⟩ | ⟨other, is, holds⟩
    · exact .inl handle
    · rcases mem_cons.mp is with rfl | before
      · exact .inr (.inr ⟨checkout, member, holds⟩)
      · exact .inr (.inl ⟨entry, before, holds⟩)
    · exact .inr (.inr ⟨other, mem_set_none is, holds⟩)

/-- A connection that comes back is idle under its own key, or gone if it was spoiled. -/
theorem Sound.dropClient (now) : (pool.dropClient index checkout now).Sound := by
  have wraps := (sound.out checkout (mem_of_getElem? found)).1.wraps
  by_cases discarded : (checkout.poisoned || !checkout.client.exchangeIsReusable) = true
  · simp only [Pool.dropClient, discarded]
    refine sound.closesCheckout found fun id is => ?_
    split at is
    · exact mem_cons.mp is
    · exact .inr is
  · -- What the wrapper reports, the transport under it reports.
    have reported : (checkout.poisoned || !checkout.client.transport.underlying.isReusable)
        = false := by
      rw [Transport.isReusable_underlying wraps]
      simp only [VgiClient.exchangeIsReusable] at discarded
      grind
    simp only [Pool.dropClient, discarded, reported, Bool.false_eq_true, if_false, release]
    split
    · split
      · exact sound.closesCheckout found fun _ is => .inr is
      next room => exact sound.returns found now (Nat.lt_of_not_le room)
    · exact sound.closesCheckout found fun _ is => .inr is

omit found

variable {auths : List AuthObject}

/-- Addresses that exist stay, and no object becomes live but the ones whose address is free. -/
theorem Sound.setAuths (grown : pool.auths.length ≤ auths.length)
    (kept : ∀ auth < pool.auths.length,
      auths[auth]?.map (·.address) = pool.auths[auth]?.map (·.address))
    (live : ∀ auth, { pool with auths }.isLive auth → pool.isLive auth ∨ pool.auths.length ≤ auth)
    (apart : ∀ {one other : AuthId}, { pool with auths }.isLive one →
      { pool with auths }.isLive other → pool.auths.length ≤ one ∨ pool.auths.length ≤ other →
      auths[one]?.map (·.address) = auths[other]?.map (·.address) → one < auths.length →
      one = other)
    : { pool with auths }.Sound := by
  have fits {key : PoolKey} {client : VgiClient} (fits : pool.Fits key client)
      : ({ pool with auths }).Fits key client := by
    refine ⟨fits.key.trans ?_, fits.keeps, fun auth is => ?_, fits.wraps⟩
    · simp only [keyOf, PoolKey.mk.injEq, true_and]
      cases is : client.opened.auth with
      | none => rfl
      | some auth => exact (kept auth (fits.allocated auth is)).symm
    · exact Nat.lt_of_lt_of_le (fits.allocated auth is) grown
  refine ⟨sound.once, sound.fresh, sound.gone, fun entry is => fits (sound.filed entry is),
    fun checkout is => ⟨fits (sound.out checkout is).1, (sound.out checkout is).2⟩, sound.bound, ?_⟩
  intro one other oneLive otherLive same inside
  by_cases old : pool.auths.length ≤ one ∨ pool.auths.length ≤ other
  · exact apart oneLive otherLive old same inside
  · rw [not_or, Nat.not_le, Nat.not_le] at old
    rw [kept one old.1, kept other old.2] at same
    refine sound.distinct ?_ ?_ same old.1
    · exact (live one oneLive).resolve_right (Nat.not_le.mpr old.1)
    · exact (live other otherLive).resolve_right (Nat.not_le.mpr old.2)

omit sound in
/-- What has the address of an object is an object. -/
theorem length_of_address {one other}
    (same : auths[one]?.map (·.address) = auths[other]?.map (·.address))
    (inside : one < auths.length) : other < auths.length := by
  by_contra outside
  rw [getElem?_eq_none (Nat.le_of_not_lt outside), getElem?_eq_getElem inside] at same
  cases same

omit sound in
theorem isLive_append {object} (live : { pool with auths := pool.auths ++ [object] }.isLive auth)
    : pool.isLive auth ∨ pool.auths.length ≤ auth := by
  rcases live with ⟨held, is, positive⟩ | slots
  · rcases Nat.lt_or_ge auth pool.auths.length with old | new
    · rw [getElem?_append_left old] at is
      exact .inl (.inl ⟨held, is, positive⟩)
    · exact .inr new
  · exact .inl (.inr slots)

variable {address : Nat}

/-- A new object is at an address that no live one has. -/
theorem Sound.newAuth (free : ¬ ∃ auth < pool.auths.length, pool.isLive auth
      ∧ pool.auths[auth]?.map (·.address) = some address)
    : { pool with auths := pool.auths ++ [AuthObject.mk address 1] }.Sound := by
  have within auth (old : auth < pool.auths.length)
      : (pool.auths ++ [AuthObject.mk address 1])[auth]? = pool.auths[auth]? :=
    getElem?_append_left old
  have new : (pool.auths ++ [AuthObject.mk address 1])[pool.auths.length]? = some ⟨address, 1⟩ := by
    simp
  have last {auth : AuthId} (old : pool.auths.length ≤ auth)
      (inside : auth < (pool.auths ++ [AuthObject.mk address 1]).length)
      : auth = pool.auths.length := by
    rw [length_append, length_singleton] at inside
    exact Nat.le_antisymm (le_of_lt_succ inside) old
  -- An object of before that is live is at another address.
  have apart {auth : AuthId} (live : pool.isLive auth) (old : auth < pool.auths.length)
      (same : (pool.auths ++ [AuthObject.mk address 1])[auth]?.map (·.address) = some address)
      : False := by
    rw [within auth old] at same
    exact free ⟨auth, old, live, same⟩
  refine sound.setAuths (by simp) (fun auth old => by rw [within auth old])
    (fun auth live => isLive_append live) fun {one other} oneLive otherLive some_ same inside => ?_
  have otherInside := length_of_address same inside
  rcases Nat.lt_or_ge one pool.auths.length with old | isNew
  · have isLast := last (some_.resolve_left (Nat.not_le.mpr old)) otherInside
    rw [isLast, new] at same
    exact (apart ((isLive_append oneLive).resolve_right (Nat.not_le.mpr old)) old same).elim
  · cases last isNew inside
    rcases Nat.lt_or_ge other pool.auths.length with old | otherNew
    · rw [new] at same
      exact (apart ((isLive_append otherLive).resolve_right (Nat.not_le.mpr old)) old
        same.symm).elim
    · exact (last otherNew otherInside).symm

/-- Counting the references of an object that has one. -/
theorem Sound.countAuth {handles count} (found : pool.auths[auth]? = some ⟨address, handles + 1⟩)
    : { pool with auths := pool.auths.set auth ⟨address, count⟩ }.Sound := by
  have kept (other : AuthId) : (pool.auths.set auth ⟨address, count⟩)[other]?.map (·.address)
      = pool.auths[other]?.map (·.address) := by
    rw [getElem?_set]
    split
    next same =>
      subst same
      rw [if_pos ((List.getElem?_eq_some_iff.mp found).1), found]
      rfl
    · rfl
  refine sound.setAuths (by simp) (fun other _ => kept other) (fun other live => ?_)
    fun {one other} _ _ outside same inside => ?_
  · rcases live with ⟨held, is, positive⟩ | slots
    · refine .inl (.inl ?_)
      rcases getElem?_set_cases is with ⟨rfl, _⟩ | ⟨_, before⟩
      · exact ⟨_, found, succ_pos _⟩
      · exact ⟨held, before, positive⟩
    · exact .inl (.inr slots)
  · -- No object is new.
    rw [length_set] at inside
    rw [kept, kept] at same
    have otherInside := length_of_address same inside
    exact (outside.elim (Nat.not_le.mpr inside) (Nat.not_le.mpr otherInside)).elim

omit sound in
theorem connectOr_eq_ok {transport connected failure}
    (is : connectOr transport failure = .ok connected) : connected = transport := by
  cases failure with
  | some _ => cases is
  | none =>
    cases is
    rfl

/-- `acquire` and `acquire_with_options`: nothing is asked of an auth object. -/
theorem Sound.acquireLocation (location options now failure)
    : (pool.acquireWith ⟨location, options, none⟩ now
        (connectOr (connectLocation location) failure)).Sound := by
  refine sound.acquireWith now (nofun) fun transport is => ?_
  cases connectOr_eq_ok is
  exact ⟨auth?_connectLocation location, wrapsHttp_connectLocation location⟩

theorem Sound.next (steps : pool.next action = some after) : after.Sound := by
  cases action <;> simp only [next] at steps
  all_goals repeat' split at steps
  all_goals cases steps
  · exact sound.acquireLocation _ none _ _
  · exact sound.acquireLocation _ (some _) _ _
  next found _ _ => -- `acquire_with_auth`
    refine sound.acquireWith _ (fun given is => ?_) fun transport is => ?_
    · cases is
      exact ⟨.inl ⟨_, found, succ_pos _⟩, (List.getElem?_eq_some_iff.mp found).1⟩
    · cases is
      exact ⟨rfl, fun _ => nofun⟩
  · exact sound
  next checkout found => -- `poison`
    have fits := (sound.out checkout (mem_of_getElem? found)).1
    exact sound.setCheckout found rfl rfl rfl rfl rfl fits.wraps
  next checkout found => -- A call through the client.
    have fits := (sound.out checkout (mem_of_getElem? found)).1
    exact sound.setCheckout found rfl rfl rfl rfl (Transport.auth?_report _ _) (fits.wraps.report _)
  next found => exact sound.dropClient found _
  · exact sound.closes (nil_sublist _)
  · exact sound.closes filter_sublist
  next free => exact sound.newAuth free
  all_goals exact sound.countAuth ‹_›

omit sound

/-- The invariant holds after any run, by induction on its actions. -/
theorem sound_of_reaches {config allowed}
    (reached : (poolMachine config).Reaches allowed pool) : pool.Sound := by
  refine reached.invariant Sound ?_ fun sound _ steps => sound.next steps
  rintro _ rfl
  refine ⟨nodup_nil, ?_, ?_, ?_, ?_, zero_le _, ?_⟩
  · rintro id (is | is) <;> cases is
  · exact fun _ is => by cases is
  · exact fun _ is => by cases is
  · exact fun _ is => by cases is
  · exact fun {one other} _ _ _ inside => (not_lt_zero _ inside).elim

theorem config_acquireWith (pool : Pool) (demand now connect)
    : (pool.acquireWith demand now connect).config = pool.config := by
  unfold acquireWith
  split
  cases connect <;> split <;> rfl

theorem config_dropClient (pool : Pool) (index checkout now)
    : (pool.dropClient index checkout now).config = pool.config := by
  simp only [dropClient, release]
  split
  · rfl
  · repeat' split
    all_goals rfl

theorem config_next (steps : pool.next action = some after) : after.config = pool.config := by
  cases action <;> simp only [next] at steps
  all_goals repeat' split at steps
  all_goals cases steps
  all_goals first | rfl | exact config_acquireWith _ _ _ _ | exact config_dropClient _ _ _ _

/-- Every connection is in one slot, a caller has a connection that was opened for what it asked
for, and connections that were given up do not come back.
-/
structure Identity (config : PoolConfig) (pool : Pool) : Prop where
  once : pool.ids.Nodup
  out : ∀ {checkout}, some checkout ∈ pool.checkouts →
    checkout.client.opened = checkout.demand
    ∧ ∀ auth ∈ checkout.demand.auth, pool.isLive auth
  bound : pool.idle.length ≤ config.maxIdle
  gone : ∀ id ∈ pool.spoiled, id ∉ pool.ids

end Pool

/-- Whatever callers do, in any order: nobody gets a connection that was opened for another demand
or is in use, and no connection that was given up.
-/
theorem pool_connection_identity (config : PoolConfig) (pool : Pool)
    (reached : (poolMachine config).Reaches (fun _ _ => True) pool)
    : pool.Identity config := by
  have sound := Pool.sound_of_reaches reached
  have same : pool.config = config := by
    refine reached.invariant (·.config = config) ?_ fun before _ steps => ?_
    · rintro _ rfl
      rfl
    · exact (Pool.config_next steps).trans before
  refine ⟨sound.once, fun {checkout} is => ?_, same ▸ sound.bound, sound.gone⟩
  obtain ⟨fits, asked⟩ := sound.out checkout is
  refine ⟨asked, fun auth asks => .inr (.inr ⟨checkout, is, ?_⟩)⟩
  rw [fits.keeps, asked]
  exact asks

namespace PoolSample

def config : PoolConfig := ⟨10, 1⟩

def options : ConnectionOptions := ⟨false, none, none, none⟩

/-- A connection of the first auth object goes back and is taken again; then it is poisoned. The
object's last handle is gone by then, and another one takes its address.
-/
def actions : List PoolAction :=
  [.newAuth 64, .acquireWithAuth (.http "u") 0 options 0, .drop 0 1,
    .acquireWithAuth (.http "u") 0 options 2, .dropAuth 0, .poison 1, .drop 1 3, .newAuth 64,
    .acquireWithAuth (.http "u") 1 options 4]

def last : Pool where
  config := config
  idle := []
  checkouts :=
    [none, none, some ⟨⟨.http "u", some options, some 64⟩,
      ⟨1, ⟨.http "u", some options, some 1⟩, .retry (.authenticated 1), true⟩, false,
      ⟨.http "u", some options, some 1⟩⟩]
  auths := [⟨64, 0⟩, ⟨64, 1⟩]
  counters := ⟨1, 2, 0, 0, 1⟩
  opened := 2
  spoiled := [0]

end PoolSample

open PoolSample

/-- The second auth object does not get the connection of the first, whose address it has. -/
theorem pool_connection_identity_sample
    : (poolMachine config).Reaches (fun _ _ => True) last ∧ last.Identity config := by
  have reached : (poolMachine config).Reaches (fun _ _ => True) last :=
    (Machine.Reaches.start rfl).exec (Machine.meets_true _ actions) (by decide +kernel)
  exact ⟨reached, pool_connection_identity _ _ reached⟩

end Vgi.Client
