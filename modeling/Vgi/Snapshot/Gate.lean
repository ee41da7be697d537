import Vgi.Lib.Keyed
import Vgi.Lib.Machine

/-! The gates of the snapshot manager: one lock for each cache key, created by the first caller
and removed by a caller that finds no other holder. Every locked section and every release of a
reference is a step of its own, so that calls may interleave between any two of them.
-/

namespace Vgi.Snapshot

open Lib List

/-- The allocation of a gate, `Arc<Mutex<()>>`. -/
abbrev Gate := Nat

/-- Where a call stands with its gate. -/
inductive GateStage where
  | ready
  /-- Holds a lease and waits for the lock. -/
  | leased (key : String) (gate : Gate)
  | working (key : String) (gate : Gate)
  /-- The guard is dropped, the lease is not. -/
  | unlocked (key : String) (gate : Gate)
  /-- The drop of the lease is through; its reference is still counted. -/
  | checked (key : String) (gate : Gate)
deriving DecidableEq

/-- The gate that the stage holds a reference to. -/
def GateStage.gate? : GateStage → Option Gate
  | .ready => none
  | .leased _ gate | .working _ gate | .unlocked _ gate | .checked _ gate => some gate

inductive CallKind where
  | serve
  | importing
  | invalidate
deriving DecidableEq

/-- How often the call may take a lease. -/
def CallKind.rounds : CallKind → Nat
  | .serve => 3
  | .importing | .invalidate => 1

structure GateCall where
  rounds : Nat
  stage : GateStage
deriving DecidableEq

structure GateState where
  /-- The map `gates`. -/
  gates : List (String × Gate)
  calls : List GateCall
  /-- The next allocation. -/
  fresh : Gate
deriving DecidableEq

namespace GateState

variable (state : GateState)

def gateOf (key : String) : Option Gate := (state.gates.find? (·.1 = key)).map Prod.snd

/-- `Arc::strong_count`: one for the map and one for each lease. -/
def strongCount (gate : Gate) : Nat :=
  state.gates.countP (·.2 = gate) + state.calls.countP (·.stage.gate? = some gate)

def locked (gate : Gate) : Bool :=
  state.calls.any fun call =>
    match call.stage with
    | .working _ held => held = gate
    | _ => false

/-- The entry for a key, created where it is missing. -/
def entry (key : String) : Gate × GateState :=
  match state.gateOf key with
  | some gate => (gate, state)
  | none =>
    (state.fresh,
      { state with gates := (key, state.fresh) :: state.gates, fresh := state.fresh + 1 })

def setCall (index : Nat) (call : GateCall) : GateState :=
  { state with calls := state.calls.set index call }

/-- `GateLease::drop`, up to the release of the lease's own reference. -/
def dropLease (key : String) (gate : Gate) : GateState :=
  if state.strongCount gate = 2 then
    { state with gates := state.gates.filter (·.1 ≠ key) }
  else state

end GateState

inductive GateAction where
  | begin (kind : CallKind)
  | lease (index : Nat) (key : String)
  | lock (index : Nat)
  | unlock (index : Nat)
  | check (index : Nat)
  /-- The reference is released; `again` is another round of the call. -/
  | release (index : Nat) (again : Bool)

def GateState.next (state : GateState) : GateAction → Option GateState
  | .begin kind => some { state with calls := state.calls ++ [⟨kind.rounds, .ready⟩] }
  | .lease index key =>
    match state.calls[index]? with
    | some ⟨rounds + 1, .ready⟩ =>
      let (gate, state) := state.entry key
      some (state.setCall index ⟨rounds, .leased key gate⟩)
    | _ => none
  | .lock index =>
    match state.calls[index]? with
    | some ⟨rounds, .leased key gate⟩ =>
      if state.locked gate then none
      else some (state.setCall index ⟨rounds, .working key gate⟩)
    | _ => none
  | .unlock index =>
    match state.calls[index]? with
    | some ⟨rounds, .working key gate⟩ => some (state.setCall index ⟨rounds, .unlocked key gate⟩)
    | _ => none
  | .check index =>
    match state.calls[index]? with
    | some ⟨rounds, .unlocked key gate⟩ =>
      some ((state.dropLease key gate).setCall index ⟨rounds, .checked key gate⟩)
    | _ => none
  | .release index again =>
    match state.calls[index]? with
    | some ⟨rounds, .checked _ _⟩ =>
      some (state.setCall index ⟨if again then rounds else 0, .ready⟩)
    | _ => none

def gateMachine : Machine GateState GateAction where
  initial state := state = ⟨[], [], 0⟩
  next := GateState.next

/-- The key and gate of a lease that has not been dropped. -/
def GateStage.lease? : GateStage → Option (String × Gate)
  | .leased key gate | .working key gate | .unlocked key gate => some (key, gate)
  | .ready | .checked _ _ => none

theorem GateStage.gate?_of_lease? {stage : GateStage} {key gate}
    (lease : stage.lease? = some (key, gate)) : stage.gate? = some gate := by
  cases stage <;> cases lease <;> rfl

/-- What holds between any two steps: new callers take the gate of every lease, and a gate is
locked once.
-/
structure GateState.Sound (state : GateState) : Prop where
  current : ∀ {index : Nat} {call key gate},
    state.calls[index]? = some call → call.stage.lease? = some (key, gate) →
    state.gateOf key = some gate
  alone : ∀ {first second : Nat} {one other key key' gate},
    state.calls[first]? = some one → state.calls[second]? = some other →
    one.stage = .working key gate → other.stage = .working key' gate → first = second

namespace GateState

variable {state : GateState} {index : Nat} {call : GateCall}

theorem gateOf_filter_ne {key other} (ne : other ≠ key) (state : GateState)
    : gateOf { state with gates := state.gates.filter (·.1 ≠ key) } other = state.gateOf other := by
  unfold gateOf
  rw [find?_filter_ne, if_neg ne]

theorem one_le_count_of_gateOf {key gate} (is : state.gateOf key = some gate)
    : 1 ≤ state.gates.countP (·.2 = gate) := by
  obtain ⟨entry, found, rfl⟩ := Option.map_eq_some_iff.mp is
  exact countP_pos_iff.mpr ⟨entry, mem_of_find?_eq_some found, by simp⟩

/-- Two calls with a reference are counted twice. -/
theorem two_le_count {first second : Nat} {one other gate}
    (ne : first ≠ second) (firstIs : state.calls[first]? = some one)
    (secondIs : state.calls[second]? = some other) (oneHas : one.stage.gate? = some gate)
    (otherHas : other.stage.gate? = some gate)
    : 2 ≤ state.calls.countP (·.stage.gate? = some gate) := by
  -- Without the first call the second one is still counted.
  obtain ⟨inside, rfl⟩ := List.getElem?_eq_some_iff.mp firstIs
  have left := countP_set (p := fun call => call.stage.gate? = some gate) (a := ⟨0, .ready⟩) inside
  have second_left : 1 ≤ (state.calls.set first ⟨0, .ready⟩).countP
      (·.stage.gate? = some gate) := by
    refine countP_pos_iff.mpr ⟨other, ?_, by simpa using otherHas⟩
    rw [← getElem?_set_ne ne] at secondIs
    exact mem_of_getElem? secondIs
  have ready : GateStage.ready.gate? = none := rfl
  simp only [oneHas, ready, decide_true, if_true, reduceCtorEq, decide_false, if_false] at left
  omega

variable (sound : state.Sound)

include sound

/-- A step of one call keeps the invariant if the gates of the others are kept, its own lease is
under the current gate, and it works alone.
-/
theorem Sound.setCall {after : GateState} {next} (calls : after.calls = state.calls)
    (keeps : ∀ {other call key gate}, other ≠ index →
      state.calls[other]? = some call → call.stage.lease? = some (key, gate) →
      state.gateOf key = some gate → after.gateOf key = some gate)
    (current : ∀ {key gate}, next.stage.lease? = some (key, gate) → after.gateOf key = some gate)
    (alone : ∀ {key gate}, next.stage = .working key gate → state.locked gate = false)
    : (after.setCall index next).Sound := by
  have apart : ∀ {other : Nat} {call key key' gate},
      state.calls[other]? = some call → call.stage = .working key gate →
      next.stage = .working key' gate → False := by
    intro other call key key' gate found works own
    have free := alone own
    simp only [locked, any_eq_false] at free
    have := free call (mem_of_getElem? found)
    simp [works] at this
  constructor
  · intro other call key gate found lease
    rcases getElem?_set_cases found with ⟨-, rfl⟩ | ⟨ne, found⟩
    · exact current lease
    · rw [calls] at found
      exact keeps ne found lease (sound.current found lease)
  · intro first second one other key key' gate firstIs secondIs oneWorks otherWorks
    rcases getElem?_set_cases firstIs with ⟨here, oneIs⟩ | ⟨-, before⟩
    · rcases getElem?_set_cases secondIs with ⟨there, -⟩ | ⟨-, beside⟩
      · exact here.trans there.symm
      · rw [calls] at beside
        exact (apart beside otherWorks (oneIs ▸ oneWorks)).elim
    · rw [calls] at before
      rcases getElem?_set_cases secondIs with ⟨-, otherIs⟩ | ⟨-, beside⟩
      · exact (apart before oneWorks (otherIs ▸ otherWorks)).elim
      · rw [calls] at beside
        exact sound.alone before beside oneWorks otherWorks

omit sound in
/-- A new entry changes no other. -/
theorem entry_spec (state : GateState) (key)
    : (state.entry key).2.gateOf key = some (state.entry key).1
      ∧ (state.entry key).2.calls = state.calls
      ∧ ∀ other, (state.gateOf key = none → key ≠ other) →
        (state.entry key).2.gateOf other = state.gateOf other := by
  unfold entry
  cases is : state.gateOf key with
  | some gate => exact ⟨is, rfl, fun _ _ => rfl⟩
  | none =>
    refine ⟨by simp [gateOf], rfl, fun other ne => ?_⟩
    unfold gateOf
    rw [find?_cons_of_neg (by simpa using ne)]

/-- The entry goes only if no other call has the lease of it. -/
theorem dropLease_keeps {key gate} (is : state.calls[index]? = some call)
    (leased : call.stage.lease? = some (key, gate)) {other otherCall otherKey otherGate}
    (ne : other ≠ index)
    (found : state.calls[other]? = some otherCall)
    (lease : otherCall.stage.lease? = some (otherKey, otherGate))
    : (state.dropLease key gate).gateOf otherKey = some otherGate := by
  have own := sound.current is leased
  have held := sound.current found lease
  unfold dropLease
  split
  next two =>
    by_cases same : otherKey = key
    · -- The other call has the same gate, which is then counted three times.
      subst same
      cases own.symm.trans held
      have entries := one_le_count_of_gateOf own
      have calls := two_le_count ne found is (GateStage.gate?_of_lease? lease)
        (GateStage.gate?_of_lease? leased)
      unfold strongCount at two
      omega
    · rw [gateOf_filter_ne same]
      exact held
  · exact held

omit sound in
theorem Sound.start : Sound ⟨[], [], 0⟩ := by
  constructor
  · intro index call key gate found
    cases found
  · intro first second one other key key' gate found
    cases found

/-- Every action keeps the invariant, by cases on the stage of the call it is about. -/
theorem Sound.next {action after} (step : state.next action = some after) : after.Sound := by
  cases action <;> simp only [GateState.next] at step
  all_goals repeat' split at step
  all_goals cases step
  next kind => -- `begin`
    have old : ∀ {other : Nat} {call key gate},
        (state.calls ++ [⟨kind.rounds, .ready⟩])[other]? = some call →
        call.stage.lease? = some (key, gate) → state.calls[other]? = some call := by
      intro other call key gate found lease
      rw [getElem?_append] at found
      split at found
      · exact found
      · obtain rfl := mem_singleton.mp (mem_of_getElem? found)
        cases lease
    constructor
    · intro other call key gate found lease
      exact sound.current (old found lease) lease
    · intro first second one other key key' gate firstIs secondIs oneWorks otherWorks
      have oneLease : one.stage.lease? = some (key, gate) := by rw [oneWorks]; rfl
      have otherLease : other.stage.lease? = some (key', gate) := by rw [otherWorks]; rfl
      exact sound.alone (old firstIs oneLease) (old secondIs otherLease) oneWorks otherWorks
  next => -- `lease`
    obtain ⟨own, calls, others⟩ := entry_spec state ‹_›
    refine sound.setCall calls (fun _ _ _ held => ?_) ?_ (fun works => ?_)
    · rw [others, held]
      rintro none rfl
      cases none.symm.trans held
    · intro leaseKey gate lease
      cases lease
      exact own
    · cases works
  next is free => -- `lock`
    refine sound.setCall rfl (fun _ _ _ held => held) ?_ (fun works => ?_)
    · intro key gate lease
      exact sound.current is lease
    · cases works
      exact Bool.eq_false_iff.mpr free
  next is => -- `unlock`
    refine sound.setCall rfl (fun _ _ _ held => held) ?_ (nofun)
    intro key gate lease
    exact sound.current is lease
  next is => -- `check`
    refine sound.setCall ?_ ?_ (nofun) (nofun)
    · unfold dropLease
      split <;> rfl
    · intro other call key gate ne found lease _
      exact dropLease_keeps sound is rfl ne found lease
  all_goals exact sound.setCall rfl (fun _ _ _ held => held) (nofun) (nofun)

end GateState

/-- In every state of every run: at most one call works on a key, and the gate that a call waits
on or works under is the one that a new caller of its key takes.
-/
theorem snapshot_single_flight (state : GateState)
    (reached : gateMachine.Reaches (fun _ _ => True) state)
    : (∀ (first second : Nat) (one other : GateCall) (key : String) (gate gate' : Gate),
        state.calls[first]? = some one → state.calls[second]? = some other →
        one.stage = .working key gate → other.stage = .working key gate' → first = second)
      ∧ ∀ (index : Nat) (call : GateCall) (key : String) (gate : Gate),
        state.calls[index]? = some call →
        call.stage = .leased key gate ∨ call.stage = .working key gate →
        state.gateOf key = some gate := by
  have sound : state.Sound := by
    refine reached.invariant GateState.Sound ?_ fun sound _ step => sound.next step
    intro start initial
    cases (show start = _ from initial)
    exact .start
  constructor
  · intro first second one other key gate gate' firstIs secondIs oneWorks otherWorks
    -- Both have the lease of the key, so they are at the same gate.
    have oneGate := sound.current firstIs (by rw [oneWorks]; rfl)
    have otherGate := sound.current secondIs (by rw [otherWorks]; rfl)
    cases oneGate.symm.trans otherGate
    exact sound.alone firstIs secondIs oneWorks otherWorks
  · intro index call key gate found stage
    refine sound.current found ?_
    rcases stage with waits | works
    · rw [waits]
      rfl
    · rw [works]
      rfl

namespace GateSample

/-- The first call is done with the gate and drops its lease while the second one still waits;
the second takes the lock and a third one comes.
-/
def actions : List GateAction := [
  .begin .serve, .begin .invalidate, .lease 0 "k", .lease 1 "k", .lock 0, .unlock 0, .check 0,
  .lock 1, .release 0 false, .begin .importing, .lease 2 "k"]

def last : GateState where
  gates := [("k", 0)]
  calls := [⟨0, .ready⟩, ⟨0, .working "k" 0⟩, ⟨0, .leased "k" 0⟩]
  fresh := 1

end GateSample

open GateSample in
/-- The second call works under the gate that the third one waits on. -/
theorem snapshot_single_flight_sample : gateMachine.Reaches (fun _ _ => True) last
      ∧ (∀ (first second : Nat) (one other : GateCall) (key : String) (gate gate' : Gate),
        last.calls[first]? = some one → last.calls[second]? = some other →
        one.stage = .working key gate → other.stage = .working key gate' → first = second)
      ∧ last.gateOf "k" = some 0 := by
  have ends : gateMachine.exec ⟨[], [], 0⟩ actions = some last := by decide
  have reached := (Machine.Reaches.start rfl).exec (Machine.meets_true _ _) ends
  obtain ⟨alone, current⟩ := snapshot_single_flight last reached
  exact ⟨reached, alone, current 1 ⟨0, .working "k" 0⟩ "k" 0 rfl (.inr rfl)⟩

/-- Whether the stage has a lease of the key. -/
def GateStage.leases (stage : GateStage) (key : String) : Bool := stage.lease?.any (·.1 = key)

namespace GateState

variable (state : GateState) (keys : List String)

def holders (key : String) : Nat := state.calls.countP (·.stage.leases key)

/-- A call of the gate is past its check and has not released its reference. -/
def lingers (gate : Gate) : Bool :=
  state.calls.any fun call =>
    match call.stage with
    | .checked _ held => held = gate
    | _ => false

/-- The keys whose entry nobody is going to remove, after one more action. The last holder of a
key leaves its entry if a call that is past its own check lingers at the gate; the next lease
takes the entry up again.
-/
def leave : GateAction → List String
  | .lease _ key => keys.filter (· ≠ key)
  | .check index =>
    match state.calls[index]? with
    | some ⟨_, .unlocked key gate⟩ =>
      if state.holders key = 1 ∧ state.lingers gate then key :: keys else keys
    | _ => keys
  | _ => keys

/-- The entries that a run leaves. -/
def leftBehind : GateState → List String → List GateAction → List String
  | _, keys, [] => keys
  | state, keys, action :: rest =>
    match state.next action with
    | some after => after.leftBehind (state.leave keys action) rest
    | none => keys

/-- The listed keys are those of the entries without a holder; gates are allocated in order. -/
structure Tracks : Prop where
  sound : state.Sound
  ordered : (state.fresh :: state.gates.map Prod.snd).Pairwise (· > ·)
  left : ∀ key, key ∈ keys ↔ (state.gateOf key).isSome ∧ state.holders key = 0

variable {state keys}

/-- One call moves, and the others have the leases they had. -/
theorem holders_setCall {mid : GateState} {index call} (next) (calls : mid.calls = state.calls)
    (is : state.calls[index]? = some call) (key)
    : (mid.setCall index next).holders key + (call.stage.leases key).toNat
      = state.holders key + (next.stage.leases key).toNat := by
  obtain ⟨inside, rfl⟩ := List.getElem?_eq_some_iff.mp is
  have counted : state.calls[index].stage.leases key = true → 0 < state.holders key :=
    fun leases => countP_pos_iff.mpr ⟨_, getElem_mem inside, leases⟩
  unfold holders setCall at *
  rw [calls, countP_set inside]
  cases leases : state.calls[index].stage.leases key with
  | false => cases next.stage.leases key <;> simp
  | true =>
    have := counted leases
    cases next.stage.leases key <;> simp <;> omega

@[simp] theorem gateOf_setCall (index call key)
    : (state.setCall index call).gateOf key = state.gateOf key := rfl

/-- The check takes away at most the entry of its key. -/
theorem gateOf_dropLease (key gate other)
    : (state.dropLease key gate).gateOf other
      = if key = other ∧ state.strongCount gate = 2 then none else state.gateOf other := by
  unfold dropLease
  by_cases alone : state.strongCount gate = 2
  · by_cases same : key = other
    · simp [alone, same, gateOf, find?_filter]
    · rw [if_pos alone, if_neg (by simp [same]), gateOf_filter_ne (Ne.symm same)]
  · rw [if_neg alone, if_neg (by simp [alone])]

/-- A step of a call that neither takes nor drops a lease. -/
theorem Tracks.moved {index call next} (tracks : state.Tracks keys)
    (sound : (state.setCall index next).Sound) (is : state.calls[index]? = some call)
    (leases : next.stage.lease? = call.stage.lease?) : (state.setCall index next).Tracks keys := by
  refine ⟨sound, tracks.ordered, fun key => ?_⟩
  have moved := holders_setCall next rfl is key
  simp only [GateStage.leases, leases] at moved
  rw [tracks.left, gateOf_setCall, Nat.add_right_cancel moved]

/-- A gate is in the map once. -/
theorem Tracks.filter_gate {key gate} (tracks : state.Tracks keys)
    (is : state.gateOf key = some gate) : state.gates.filter (·.2 = gate) = [(key, gate)] := by
  obtain ⟨entry, found, rfl⟩ := Option.map_eq_some_iff.mp is
  obtain rfl : entry.1 = key := by simpa using find?_some found
  have member : entry ∈ state.gates.filter (·.2 = entry.2) := by
    simpa using mem_of_find?_eq_some found
  have apart := (pairwise_map.mp tracks.ordered.of_cons).filter (·.2 = entry.2)
  have here : ∀ other ∈ state.gates.filter (·.2 = entry.2), other.2 = entry.2 := by simp
  generalize state.gates.filter (·.2 = entry.2) = entries at *
  match entries with
  | [] => cases member
  | [_] => rw [mem_singleton.mp member]
  | first :: second :: _ =>
    have later := (pairwise_cons.mp apart).1 second (by simp)
    have same := (here first (by simp)).trans (here second (by simp)).symm
    exact absurd same (Nat.ne_of_gt later)

/-- The last holder of a key counts two references at its check exactly if no other call lingers
at the gate.
-/
theorem Tracks.strongCount_eq_two_iff {index : Nat} {rounds key gate} (tracks : state.Tracks keys)
    (is : state.calls[index]? = some ⟨rounds, .unlocked key gate⟩) (last : state.holders key = 1)
    : state.strongCount gate = 2 ↔ state.lingers gate = false := by
  have once := tracks.filter_gate (tracks.sound.current is rfl)
  have entries : state.gates.countP (·.2 = gate) = 1 := by rw [countP_eq_length_filter, once]; rfl
  rw [strongCount, entries]
  constructor
  · intro two
    refine any_eq_false.mpr fun call member lingers => ?_
    obtain ⟨rounds, stage⟩ := call
    obtain ⟨other, found⟩ := mem_iff_getElem?.mp member
    cases stage <;> simp at lingers
    subst lingers
    have ne : index ≠ other := by
      rintro rfl
      cases is.symm.trans found
    have := two_le_count ne is found rfl rfl
    omega
  · intro none
    have own : 0 < state.calls.countP (·.stage.gate? = some gate) :=
      countP_pos_iff.mpr ⟨_, mem_of_getElem? is, by simp [GateStage.gate?]⟩
    have leases : state.calls.countP (·.stage.gate? = some gate) ≤ state.holders key := by
      refine countP_mono_left fun ⟨rounds, stage⟩ member refers => ?_
      cases lease : stage.lease? with
      | none =>
        have lingers := any_eq_false.mp none _ member
        cases stage <;> cases lease
        · cases of_decide_eq_true refers
        · exact absurd refers (by simpa [GateStage.gate?] using lingers)
      | some held =>
        obtain ⟨other, found⟩ := mem_iff_getElem?.mp member
        cases (of_decide_eq_true refers).symm.trans (GateStage.gate?_of_lease? lease)
        have same := tracks.filter_gate (tracks.sound.current found lease)
        cases once.symm.trans same
        simp [GateStage.leases, lease]
    omega

/-- One action leaves behind the keys that `leave` says. -/
theorem Tracks.next {action after} (tracks : state.Tracks keys)
    (step : state.next action = some after) : after.Tracks (state.leave keys action) := by
  have sound := tracks.sound.next step
  cases action <;> simp only [GateState.next] at step
  all_goals repeat' split at step
  all_goals cases step
  next kind => -- `begin`
    refine ⟨sound, tracks.ordered, fun key => (tracks.left key).trans ?_⟩
    simp [gateOf, holders, GateStage.leases, GateStage.lease?]
  next key _ rounds is => -- `lease`
    obtain ⟨own, calls, others⟩ := entry_spec state key
    refine ⟨sound, ?_, fun other => ?_⟩
    · unfold entry
      split
      · exact tracks.ordered
      · refine pairwise_cons.mpr ⟨fun gate member => ?_, tracks.ordered⟩
        rcases mem_cons.mp member with rfl | member
        · exact Nat.lt_succ_self _
        · exact Nat.lt_succ_of_lt ((pairwise_cons.mp tracks.ordered).1 gate member)
    have moved := holders_setCall ⟨rounds, .leased key (state.entry key).1⟩ calls is other
    simp only [GateStage.leases, GateStage.lease?, Option.any, Bool.toNat_false] at moved
    by_cases same : key = other
    · subst same
      simp only [decide_true, Bool.toNat_true] at moved
      simp only [leave, mem_filter, ne_eq, not_true, decide_false, Bool.false_eq_true, and_false,
        false_iff]
      omega
    · simp only [same, decide_false, Bool.toNat_false, Nat.add_zero] at moved
      have kept : (state.entry key).2.gateOf other = state.gateOf other :=
        others other fun _ => same
      simp only [leave, mem_filter, tracks.left, moved, gateOf_setCall, kept]
      simp [Ne.symm same]
  next is _ => exact tracks.moved sound is rfl
  next is => exact tracks.moved sound is rfl
  next rounds key gate is => -- `check`
    have calls : (state.dropLease key gate).calls = state.calls := by
      unfold dropLease
      split <;> rfl
    refine ⟨sound, ?_, fun other => ?_⟩
    · unfold dropLease
      split
      · exact tracks.ordered.sublist ((filter_sublist.map _).cons_cons _)
      · exact tracks.ordered
    have moved := holders_setCall ⟨rounds, .checked key gate⟩ calls is other
    simp only [GateStage.leases, GateStage.lease?, Option.any, Bool.toNat_false] at moved
    have before := tracks.left other
    have leaves : state.holders key = 1 ∧ state.lingers gate = true
        ↔ state.holders key = 1 ∧ state.strongCount gate ≠ 2 := and_congr_right fun last => by
      rw [ne_eq, tracks.strongCount_eq_two_iff is last, Bool.not_eq_false]
    rw [gateOf_setCall, gateOf_dropLease]
    simp only [leave, is, leaves]
    by_cases same : key = other
    · subst same
      simp only [decide_true, Bool.toNat_true] at moved
      by_cases alone : state.strongCount gate = 2
      · simp [alone, before]
        omega
      · simp only [alone, tracks.sound.current is rfl]
        split
        · simp
          omega
        · simp [before]
          omega
    · simp only [same, decide_false, Bool.toNat_false, Nat.add_zero] at moved
      simp only [same, false_and, if_false, moved, ← before]
      split
      · simp [Ne.symm same]
      · rfl
  all_goals next is _ => exact tracks.moved sound is rfl

theorem Tracks.exec {actions after} (tracks : state.Tracks keys)
    (ends : gateMachine.exec state actions = some after)
    : after.Tracks (state.leftBehind keys actions) := by
  induction actions generalizing state keys with
  | nil =>
    cases ends
    exact tracks
  | cons action rest ih =>
    obtain ⟨next, moves, ends⟩ := Option.bind_eq_some_iff.mp ends
    rw [leftBehind, show state.next action = some next from moves]
    exact ih (tracks.next moves) ends

end GateState

/-- After every run that leaves no call active, the map is empty exactly if no last holder of a key
made its check before a call that had made its own released its reference, the key not leased
again since.
-/
theorem gates_empty_iff (actions : List GateAction) (state : GateState)
    (ends : gateMachine.exec ⟨[], [], 0⟩ actions = some state)
    (idle : ∀ call ∈ state.calls, call.stage = .ready)
    : state.gates = [] ↔ GateState.leftBehind ⟨[], [], 0⟩ [] actions = [] := by
  have start : GateState.Tracks ⟨[], [], 0⟩ [] := by
    refine ⟨.start, pairwise_singleton _ _, fun key => ?_⟩
    simp [GateState.gateOf]
  have tracks := start.exec ends
  have free : ∀ key, state.holders key = 0 := fun key =>
    countP_eq_zero.mpr fun call member => by
      simp [idle call member, GateStage.leases, GateStage.lease?]
  constructor
  · intro none
    refine eq_nil_iff_forall_not_mem.mpr fun key member => ?_
    have := ((tracks.left key).mp member).1
    simp [GateState.gateOf, none] at this
  · intro none
    refine eq_nil_iff_forall_not_mem.mpr fun entry member => ?_
    have found : (state.gateOf entry.1).isSome := by
      rw [GateState.gateOf, Option.isSome_map]
      exact find?_isSome.mpr ⟨entry, member, by simp⟩
    have left := (tracks.left entry.1).mpr ⟨found, free _⟩
    rw [none] at left
    cases left

/-- Two calls of one key finish together: each counts the reference of the other. -/
theorem gates_empty_iff_fails : ∃ state, gateMachine.exec ⟨[], [], 0⟩ [
      .begin .serve, .begin .importing, .lease 0 "k", .lease 1 "k", .lock 0, .unlock 0, .lock 1,
      .unlock 1, .check 0, .check 1, .release 0 false, .release 1 false] = some state
    ∧ (∀ call ∈ state.calls, call.stage = .ready) ∧ state.gates ≠ [] :=
  ⟨⟨[("k", 0)], [⟨0, .ready⟩, ⟨0, .ready⟩], 1⟩, by decide⟩

namespace GateSample

/-- The run goes on until all three are done, each check after the release before it. -/
def finished : List GateAction := actions ++ [
  .unlock 1, .check 1, .release 1 false, .lock 2, .unlock 2, .check 2, .release 2 false]

end GateSample

open GateSample in
/-- Three calls of one key that check one after the other leave no gate. -/
theorem gates_empty_iff_sample : ∃ state,
    gateMachine.exec ⟨[], [], 0⟩ finished = some state ∧ state.gates = [] := by
  have ends : gateMachine.exec ⟨[], [], 0⟩ finished
      = some ⟨[], replicate 3 ⟨0, .ready⟩, 1⟩ := by decide
  exact ⟨_, ends, (gates_empty_iff finished _ ends (by decide)).mpr (by decide)⟩

end Vgi.Snapshot
