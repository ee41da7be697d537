import Vgi.Lib.Machine

/-! Programs that run beside each other and share a world: each operation is one step, and between
any two of them the other programs may take steps of their own. What has been performed so far is
kept as a trace, which is also what the world's answers depend on. A program is verified on its
own, against what the others may have done meanwhile.
-/

namespace Vgi.Lib

open List

/-- A program over operations `Op`, each with the type of its results. -/
inductive Prog (Op : Type) (Res : Op → Type) (α : Type) where
  | done (value : α)
  | step (op : Op) (next : Res op → Prog Op Res α)

/-- An operation that a call has performed, with its result. -/
structure Performed (Op : Type) (Res : Op → Type) where
  call : Nat
  op : Op
  result : Res op

variable {Op : Type} {Res : Op → Type} {α β Choice Start : Type}

namespace Prog

def bind (program : Prog Op Res α) (next : α → Prog Op Res β) : Prog Op Res β :=
  match program with
  | .done value => next value
  | .step op rest => .step op fun result => (rest result).bind next

instance : Monad (Prog Op Res) where
  pure := .done
  bind := bind

def perform (op : Op) : Prog Op Res (Res op) := .step op .done

/-- Performs one operation, whose failure is the failure of the program. -/
def attempt {ε : Type} {Value : Op → Type} (op : Op)
    : ExceptT ε (Prog Op fun op => Except ε (Value op)) (Value op) :=
  ExceptT.mk (perform op)

/-- A program whose outcome nobody waits for. -/
def whole {ε : Type} (program : ExceptT ε (Prog Op Res) α) : Prog Op Res Unit := do
  let _ ← program.run
  pure ()

end Prog

/-- The answer to an operation of a call: it depends on the trace so far, and on what the
surroundings choose.
-/
structure World (Op : Type) (Res : Op → Type) (Choice : Type) where
  answer : List (Performed Op Res) → Nat → (op : Op) → Choice → Option (Res op)

structure Crowd (Op : Type) (Res : Op → Type) where
  trace : List (Performed Op Res)
  running : List (Prog Op Res Unit)

inductive CrowdAction (Choice Start : Type) where
  | start (request : Start)
  | perform (call : Nat) (choice : Choice)
  /-- The call stops where it is. -/
  | stop (call : Nat)

/-- Starts programs and lets them take their steps in any order. -/
def World.crowd (world : World Op Res Choice) (program : Start → Prog Op Res Unit)
    : Machine (Crowd Op Res) (CrowdAction Choice Start) where
  initial crowd := crowd.trace = [] ∧ crowd.running = []
  next crowd
    | .start request => some { crowd with running := crowd.running ++ [program request] }
    | .perform call choice =>
      match crowd.running[call]? with
      | some (.step op next) =>
        (world.answer crowd.trace call op choice).map fun result =>
          { trace := crowd.trace ++ [⟨call, op, result⟩]
            running := crowd.running.set call (next result) }
      | _ => none
    | .stop call =>
      if call < crowd.running.length then
        some { crowd with running := crowd.running.set call (.done ()) }
      else none

/-- What is known of the results of operations, what has to be shown where one is performed, and
what an operation of another call leaves alone.
-/
structure Rules (Op : Type) (Res : Op → Type) where
  may : List (Performed Op Res) → Nat → (op : Op) → Res op → Prop
  allowed : List (Performed Op Res) → Nat → Op → Prop
  calm : List (Performed Op Res) → Nat → Performed Op Res → Prop

namespace Rules

variable (rules : Rules Op Res)

/-- The trace of operations that were all allowed where they were performed. -/
inductive Orderly : List (Performed Op Res) → Prop where
  | nil : Orderly []
  | snoc {trace : List (Performed Op Res)} {event : Performed Op Res} (before : Orderly trace)
      (allowed : rules.allowed trace event.call event.op)
      (may : rules.may trace event.call event.op event.result) : Orderly (trace ++ [event])

/-- The trace grew by operations of other calls only. -/
inductive Quiet (call : Nat) : List (Performed Op Res) → List (Performed Op Res) → Prop where
  | refl (trace : List (Performed Op Res)) : Quiet call trace trace
  | snoc {trace later : List (Performed Op Res)} {event : Performed Op Res}
      (before : Quiet call trace later) (orderly : rules.Orderly (later ++ [event]))
      (other : event.call ≠ call) (calm : rules.calm later call event)
      : Quiet call trace (later ++ [event])

/-- The program of the call may run on from here: whatever the others do in between, its
operations are allowed, and `post` holds at its end.
-/
def Safe (call : Nat) (post : α → List (Performed Op Res) → Prop)
    : Prog Op Res α → List (Performed Op Res) → Prop
  | .done value, trace => post value trace
  | .step op next, trace => ∀ later, rules.Orderly later → rules.Quiet call trace later →
      rules.allowed later call op
      ∧ ∀ result, rules.may later call op result →
        Safe call post (next result) (later ++ [⟨call, op, result⟩])

variable {rules} {call : Nat} {post : α → List (Performed Op Res) → Prop}
  {trace later : List (Performed Op Res)}

theorem Quiet.trans {latest} (first : rules.Quiet call trace later)
    (second : rules.Quiet call later latest) : rules.Quiet call trace latest := by
  induction second with
  | refl => exact first
  | snoc _ orderly other calm ih => exact ih.snoc orderly other calm

theorem Quiet.isPrefix (quiet : rules.Quiet call trace later) : trace <+: later := by
  induction quiet with
  | refl => exact prefix_refl _
  | snoc _ _ _ _ ih => exact ih.trans (prefix_append _ _)

theorem Quiet.others (quiet : rules.Quiet call trace later)
    : ∃ rest, later = trace ++ rest ∧ ∀ event ∈ rest, event.call ≠ call := by
  induction quiet with
  | refl => exact ⟨[], (append_nil _).symm, fun _ member => absurd member not_mem_nil⟩
  | @snoc _ event _ _ other _ ih =>
    obtain ⟨rest, rfl, others⟩ := ih
    refine ⟨rest ++ [event], append_assoc _ _ _, fun last member => ?_⟩
    rcases mem_append.mp member with earlier | is
    · exact others last earlier
    · exact mem_singleton.mp is ▸ other

/-- What every calm operation of the others keeps, a quiet stretch keeps. -/
theorem Quiet.keeps (holds : List (Performed Op Res) → Prop)
    (quiet : rules.Quiet call trace later)
    (keep : ∀ {trace event}, holds trace →
      rules.Orderly (trace ++ [event]) → event.call ≠ call → rules.calm trace call event →
      holds (trace ++ [event]))
    (start : holds trace) : holds later := by
  induction quiet with
  | refl => exact start
  | snoc _ orderly other calm ih => exact keep ih orderly other calm

variable {program : Prog Op Res α} {other : α → List (Performed Op Res) → Prop}
  (safe : rules.Safe call post program trace)

include safe

theorem Safe.mono (weaker : ∀ value trace, post value trace → other value trace)
    : rules.Safe call other program trace := by
  induction program generalizing trace with
  | done value => exact weaker value trace safe
  | step op next ih =>
    intro later orderly quiet
    obtain ⟨allowed, goesOn⟩ := safe later orderly quiet
    exact ⟨allowed, fun result may => ih result (goesOn result may)⟩

omit safe in
/-- A program is safe if its first part ends where the rest is safe. -/
theorem Safe.bind {post : β → List (Performed Op Res) → Prop} {next}
    (safe : rules.Safe call (fun value => rules.Safe call post (next value)) program trace)
    : rules.Safe call post (program >>= next) trace := by
  induction program generalizing trace with
  | done value => exact safe
  | step op rest ih =>
    intro later orderly quiet
    obtain ⟨allowed, goesOn⟩ := safe later orderly quiet
    exact ⟨allowed, fun result may => ih result (goesOn result may)⟩

/-- The others' steps leave a program safe. -/
theorem Safe.quiet
    (stable : ∀ value {trace later}, post value trace → rules.Quiet call trace later →
      post value later)
    (quiet : rules.Quiet call trace later)
    : rules.Safe call post program later := by
  cases program with
  | done value => exact stable value safe quiet
  | step op next => exact fun latest orderly more => safe latest orderly (quiet.trans more)

/-- A program only adds to the trace. -/
theorem Safe.extends
    : rules.Safe call (fun value later => post value later ∧ trace <+: later) program trace := by
  induction program generalizing trace with
  | done value => exact ⟨safe, prefix_refl _⟩
  | step op next ih =>
    intro later orderly quiet
    obtain ⟨allowed, goesOn⟩ := safe later orderly quiet
    refine ⟨allowed, fun result may => (ih result (goesOn result may)).mono ?_⟩
    rintro value latest ⟨holds, grew⟩
    exact ⟨holds, (quiet.isPrefix.trans (prefix_append _ _)).trans grew⟩

/-- The program may run on from here, and ends with a value that meets `good` or with an error
that meets `bad`.
-/
def Runs {ε : Type} (rules : Rules Op Res) (call : Nat)
    (good : α → List (Performed Op Res) → Prop) (bad : ε → List (Performed Op Res) → Prop)
    (program : ExceptT ε (Prog Op Res) α) (trace : List (Performed Op Res)) : Prop :=
  rules.Safe call (fun result trace =>
    match result with
    | .ok value => good value trace
    | .error error => bad error trace) program.run trace

omit safe

section Runs

variable {ε : Type} {good : α → List (Performed Op Res) → Prop}
  {bad : ε → List (Performed Op Res) → Prop}

theorem Runs.done {value} (holds : good value trace)
    : rules.Runs call good bad (pure value) trace := holds

theorem Runs.failed {error} (holds : bad error trace)
    : rules.Runs call good bad (throw error) trace := holds

variable {program : ExceptT ε (Prog Op Res) α}

theorem Runs.bind {good : β → List (Performed Op Res) → Prop} {next}
    (first : rules.Runs call (fun value => rules.Runs call good bad (next value)) bad program trace)
    : rules.Runs call good bad (program >>= next) trace := by
  refine Safe.bind (first.mono fun result trace holds => ?_)
  cases result with
  | ok value | error error => exact holds

/-- One operation that may fail. -/
theorem Runs.attempt {Value : Op → Type} {rules : Rules Op fun op => Except ε (Value op)}
    {op trace good bad}
    (one : ∀ later, rules.Orderly later → rules.Quiet call trace later →
      rules.allowed later call op
      ∧ ∀ value, rules.may later call op (.ok value) →
        good value (later ++ [⟨call, op, .ok value⟩]))
    (fails : ∀ later error, rules.Quiet call trace later →
      bad error (later ++ [⟨call, op, .error error⟩]))
    : rules.Runs call good bad (.attempt op) trace := by
  intro later orderly quiet
  obtain ⟨allowed, ok⟩ := one later orderly quiet
  refine ⟨allowed, fun result may => ?_⟩
  cases result with
  | ok value => exact ok value may
  | error failure => exact fails later failure quiet

/-- The outcome of a part, whichever it is, is a value for the rest. -/
theorem Runs.lift {good}
    {bad : ε → List (Performed Op Res) → Prop}
    (runs : rules.Runs call (fun value => good (.ok value)) (fun error => good (.error error))
      program trace)
    : rules.Runs call good bad (ExceptT.lift program.run) trace := by
  refine Safe.bind (runs.mono fun result trace holds => ?_)
  cases result with
  | ok value | error error => exact holds

/-- The whole of a program is safe, however it ends. -/
theorem Runs.whole (runs : rules.Runs call (fun _ _ => True) (fun _ _ => True) program trace)
    : rules.Safe call (fun _ _ => True) (.whole program) trace :=
  Safe.bind (runs.mono fun _ _ _ => trivial)

/-- A computation that performs nothing. -/
theorem Runs.given {result : Except ε α} (ok : ∀ value, result = .ok value → good value trace)
    (fails : ∀ error, bad error trace)
    : rules.Runs call good bad (liftM result) trace := by
  cases result with
  | ok value => exact ok value rfl
  | error failure => exact fails failure

variable (runs : rules.Runs call good bad program trace)

include runs

theorem Runs.mono {otherBad}
    (weaker : ∀ value trace, good value trace → other value trace)
    (weakerBad : ∀ error trace, bad error trace → otherBad error trace)
    : rules.Runs call other otherBad program trace := by
  refine Safe.mono runs fun result trace holds => ?_
  cases result with
  | ok value => exact weaker value trace holds
  | error error => exact weakerBad error trace holds

theorem Runs.extends : rules.Runs call (fun value later => good value later ∧ trace <+: later)
        (fun error later => bad error later ∧ trace <+: later) program trace := by
  refine Safe.mono (Safe.extends runs) fun result later holds => ?_
  cases result with
  | ok value | error error => exact holds

end Runs

/-- What holds between any two steps of a crowd. -/
structure Settled (rules : Rules Op Res) (crowd : Crowd Op Res) : Prop where
  orderly : rules.Orderly crowd.trace
  begun : ∀ event ∈ crowd.trace, event.call < crowd.running.length
  each : ∀ {call} {program : Prog Op Res Unit}, crowd.running[call]? = some program →
    rules.Safe call (fun _ _ => True) program crowd.trace

variable {crowd : Crowd Op Res} (settled : Settled rules crowd)

include settled

theorem Settled.start {program}
    (safe : rules.Safe crowd.running.length (fun _ _ => True) program crowd.trace)
    : Settled rules { crowd with running := crowd.running ++ [program] } := by
  refine ⟨settled.orderly, fun event member => ?_, fun {call other} found => ?_⟩
  · rw [length_append]
    exact Nat.lt_add_right _ (settled.begun event member)
  · rw [getElem?_append] at found
    split at found
    · exact settled.each found
    · obtain ⟨inside, is⟩ := List.getElem?_eq_some_iff.mp found
      rw [length_singleton] at inside
      have last : call = crowd.running.length := by omega
      subst last
      simp only [Nat.sub_self] at is
      exact is ▸ safe

theorem Settled.perform {call op next result} (found : crowd.running[call]? = some (.step op next))
    (may : rules.may crowd.trace call op result)
    (calm : ∀ {other}, call ≠ other → rules.allowed crowd.trace call op →
      rules.calm crowd.trace other ⟨call, op, result⟩)
    : Settled rules {
        trace := crowd.trace ++ [⟨call, op, result⟩]
        running := crowd.running.set call (next result) } := by
  obtain ⟨allowed, goesOn⟩ := settled.each found crowd.trace settled.orderly (.refl _)
  have orderly : rules.Orderly (crowd.trace ++ [⟨call, op, result⟩]) :=
    settled.orderly.snoc allowed may
  refine ⟨orderly, ?_, fun {other program} otherFound => ?_⟩
  · rw [length_set]
    exact forall_mem_append.mpr
      ⟨settled.begun, forall_mem_singleton.mpr (List.getElem?_eq_some_iff.mp found).1⟩
  · rcases getElem?_set_cases otherFound with ⟨rfl, rfl⟩ | ⟨ne, otherFound⟩
    · exact goesOn result may
    · exact (settled.each otherFound).quiet (fun _ _ _ _ _ => trivial)
        ((Quiet.refl _).snoc orderly ne.symm (calm ne.symm allowed))

theorem Settled.stop (call)
    : Settled rules { crowd with running := crowd.running.set call (.done ()) } := by
  refine ⟨settled.orderly, fun event member => ?_, fun {other program} found => ?_⟩
  · rw [length_set]
    exact settled.begun event member
  · rcases getElem?_set_cases found with ⟨_, rfl⟩ | ⟨_, found⟩
    · exact trivial
    · exact settled.each found

omit settled

/-- If every program is safe from its start, among others that are calm to it, then in every run
all operations are allowed where they are performed.
-/
theorem orderly_of_reaches {world : World Op Res Choice} {program}
    {condition : Crowd Op Res → CrowdAction Choice Start → Prop}
    (sees : ∀ {crowd : Crowd Op Res} {call choice op} {result : Res op},
      condition crowd (.perform call choice) →
      (∃ next, crowd.running[call]? = some (.step op next)) →
      world.answer crowd.trace call op choice = some result →
      rules.may crowd.trace call op result)
    (safe : ∀ request {call} {trace : List (Performed Op Res)},
      rules.Orderly trace → (∀ event ∈ trace, event.call < call) →
      rules.Safe call (fun _ _ => True) (program request) trace)
    (calm : ∀ {trace event call},
      rules.Orderly trace → event.call ≠ call → rules.allowed trace event.call event.op →
      rules.may trace event.call event.op event.result → rules.calm trace call event)
    (reached : (world.crowd program).Reaches condition crowd)
    : rules.Orderly crowd.trace := by
  refine (reached.invariant (Settled rules) ?_ ?_).orderly
  · rintro ⟨trace, running⟩ ⟨rfl, rfl⟩
    exact ⟨.nil, fun _ member => absurd member not_mem_nil, nofun⟩
  · intro crowd after action settled meets taken
    cases action with
    | start request =>
      cases taken
      exact settled.start (safe request settled.orderly settled.begun)
    | perform call choice =>
      simp only [World.crowd] at taken
      split at taken
      next op next found =>
        obtain ⟨result, answer, rfl⟩ := Option.map_eq_some_iff.mp taken
        have may := sees meets ⟨next, found⟩ answer
        exact settled.perform found may fun ne allowed => calm settled.orderly ne allowed may
      · cases taken
    | stop call =>
      simp only [World.crowd] at taken
      split at taken
      · cases taken
        exact settled.stop call
      · cases taken

/-- Every operation of an orderly trace was allowed in the trace before it. -/
theorem Orderly.at_prefix {event} (orderly : rules.Orderly later)
    (inside : trace ++ [event] <+: later)
    : rules.Orderly trace ∧ rules.allowed trace event.call event.op
      ∧ rules.may trace event.call event.op event.result := by
  induction orderly with
  | nil =>
    simp only [prefix_nil, append_eq_nil_iff, cons_ne_nil, and_false] at inside
  | @snoc before last orderly allowed may ih =>
    rcases prefix_concat_iff.mp inside with whole | inside
    · obtain ⟨rfl, is⟩ := append_inj' whole rfl
      cases is
      exact ⟨orderly, allowed, may⟩
    · exact ih inside

end Rules

end Vgi.Lib
