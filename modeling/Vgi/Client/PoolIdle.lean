import Vgi.Client.PoolIdentity

/-! Which idle connections an acquire closes: those of its own key that are older than the first
one it can hand out.
-/

namespace Vgi.Client.Pool

open Lib List

variable (pool : Pool) (demand : Demand) (now : Instant) (connect : Result Transport)

def expired : List Idle := pool.idle.filter (·.expired pool.config.idleTimeout now)

/-- The idle connections are one that is handed out and has not expired, those that are closed and
counted, and those that are left.
-/
def Closes (closed : List Idle) (after : Pool) : Prop :=
  ∃ handed : Option Idle, (∀ entry ∈ handed, entry.expired pool.config.idleTimeout now = false)
    ∧ pool.idle.Perm (handed.toList ++ (closed ++ after.idle))
    ∧ after.counters.evictedIdle = pool.counters.evictedIdle + closed.length

theorem closes_acquireWith
    : pool.Closes now (pool.closedBy demand now) (pool.acquireWith demand now connect) := by
  unfold acquireWith
  split
  rename_i found left closed taken
  obtain ⟨handed, rfl, ours, rfl, -, perm⟩ := taken_spec taken
  refine ⟨handed, fun entry is => (ours entry is).2, ?_⟩
  cases handed with
  | some entry => exact ⟨perm, rfl⟩
  | none => cases connect <;> exact ⟨perm, rfl⟩

theorem closedBy_sublist : (pool.closedBy demand now).Sublist (pool.expired now) := by
  unfold closedBy expiredFirst
  split
  · generalize is : pool.idle.filter (·.key = pool.keyOf demand) = bucket
    have own : bucket.Sublist pool.idle := is ▸ filter_sublist
    rw [← filter_eq_self.mpr (all_eq_true.mp (all_takeWhile (l := bucket)))]
    exact ((takeWhile_sublist _).trans own).filter _
  · exact nil_sublist _

theorem expired_of_closedBy {entry} (closed : entry ∈ pool.closedBy demand now)
    : entry.expired pool.config.idleTimeout now = true :=
  (mem_filter.mp ((pool.closedBy_sublist demand now).subset closed)).2

/-- No connection that has timed out is left, in the pool or uncounted. -/
def Reclaimed (after : Pool) : Prop :=
  (∀ entry ∈ after.idle, entry.expired pool.config.idleTimeout now = false)
  ∧ after.counters.evictedIdle = pool.counters.evictedIdle + (pool.expired now).length

/-- What is closed and counted are some of the connections that have timed out, so it is all of
them if nothing is left.
-/
theorem reclaimed_acquireWith : pool.Reclaimed now (pool.acquireWith demand now connect)
      ↔ pool.expired now = pool.closedBy demand now := by
  have closed : ∀ entry ∈ pool.closedBy demand now, _ := fun _ =>
    pool.expired_of_closedBy demand now
  obtain ⟨handed, alive, perm, counted⟩ := pool.closes_acquireWith demand now connect
  have count := (perm.filter (·.expired pool.config.idleTimeout now)).length_eq
  have live : handed.toList.filter (·.expired pool.config.idleTimeout now) = [] :=
    filter_eq_nil_iff.mpr (by simpa using alive)
  rw [filter_append, filter_append, live, nil_append, filter_eq_self.mpr closed, length_append]
    at count
  constructor
  · rintro ⟨-, all⟩
    exact ((pool.closedBy_sublist demand now).eq_of_length (by omega)).symm
  · intro same
    rw [Reclaimed, same]
    refine ⟨fun entry member => ?_, counted⟩
    have none : (pool.acquireWith demand now connect).idle.filter
        (·.expired pool.config.idleTimeout now) = [] := by
      rw [← expired, same] at count
      exact length_eq_zero_iff.mp (by omega)
    simpa using filter_eq_nil_iff.mp none entry member

/-- An acquire closes only connections that have timed out, and counts each once; it leaves none
of them, in the pool or uncounted, exactly if all that have timed out are in front in the bucket
of its key.
-/
theorem acquire_reclaims_iff
    : pool.Closes now (pool.closedBy demand now) (pool.acquireWith demand now connect)
      ∧ (∀ entry ∈ pool.closedBy demand now, entry.expired pool.config.idleTimeout now = true)
      ∧ (pool.Reclaimed now (pool.acquireWith demand now connect)
        ↔ pool.expired now = pool.closedBy demand now) :=
  ⟨pool.closes_acquireWith demand now connect, fun _ => pool.expired_of_closedBy demand now,
    pool.reclaimed_acquireWith demand now connect⟩

/-- What is demanded and when, if the action is an acquire that reaches the pool. -/
def acquires : PoolAction → Option (Demand × Instant)
  | .acquire location now _ => some (⟨location, none, none⟩, now)
  | .acquireWithOptions location options now _ => some (⟨location, some options, none⟩, now)
  | .acquireWithAuth location auth options now =>
    match location, pool.auths[auth]? with
    | .http _, some ⟨_, _ + 1⟩ => some (⟨location, some options, some auth⟩, now)
    | _, _ => none
  | _ => none

theorem next_of_acquires {action demand now} (is : pool.acquires action = some (demand, now))
    : ∃ connect, pool.next action = some (pool.acquireWith demand now connect) := by
  cases action <;> simp only [acquires] at is
  case acquire | acquireWithOptions =>
    cases is
    exact ⟨_, rfl⟩
  case acquireWithAuth =>
    split at is
    next found =>
      cases is
      exact ⟨_, by rw [Pool.next, found]⟩
    · cases is
  all_goals cases is

/-- Over whole runs: every acquire leaves no connection that has timed out exactly if at every
acquire all of them are in front in the bucket of its key.
-/
theorem run_reclaims_iff (config : PoolConfig) (actions : List PoolAction) (start : Pool)
    : (poolMachine config).Meets (fun pool action => ∀ demand now after,
          pool.acquires action = some (demand, now) → pool.next action = some after →
          pool.Reclaimed now after) start actions
      ↔ (poolMachine config).Meets (fun pool action => ∀ demand now,
          pool.acquires action = some (demand, now) →
          pool.expired now = pool.closedBy demand now) start actions := by
  refine iff_of_eq (congrArg ((poolMachine config).Meets · start actions) ?_)
  funext pool action
  refine propext (forall₂_congr fun demand now => ?_)
  constructor
  · intro reclaims is
    obtain ⟨connect, taken⟩ := pool.next_of_acquires is
    exact (pool.reclaimed_acquireWith demand now connect).mp (reclaims _ is taken)
  · intro front after is taken
    obtain ⟨connect, acquired⟩ := pool.next_of_acquires is
    cases acquired.symm.trans taken
    exact (pool.reclaimed_acquireWith demand now connect).mpr (front is)

/-- A connection that timed out is kept, fills the pool and is not counted. -/
theorem other_key_not_reclaimed
    : ((poolMachine ⟨60, 1⟩).exec ⟨⟨60, 1⟩, [], [], [], ⟨0, 0, 0, 0, 0⟩, 0, []⟩
        [.acquire (.unix "a") 0 none, .drop 0 0, .acquire (.unix "b") 61 none, .drop 1 61]).map
        (fun pool =>
          (pool.idle.map (·.since), pool.counters.evictedIdle, pool.counters.evictedFull))
      = some ([0], 0, 1) := by
  decide

end Vgi.Client.Pool
