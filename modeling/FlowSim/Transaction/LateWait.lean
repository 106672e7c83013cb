import FlowSim.Transaction.Routing

/-!
Responses and late waits. A Tick routes its messages before it handles the
commands of the transactions, and it handles one command of each; a response that
comes before its wait has been handled resumes nobody and is gone. Runs in which
every awaited response finds its wait registered lose none.
-/
namespace FlowSim.Transaction
open FlowSim.Lib
set_option linter.unusedSimpArgs false

variable {P : Type}

/-! ### What is discarded -/

namespace System

@[simp] theorem discarded_setTxn (s : System P) (id : TransactionID) (txn : Txn P) :
    (s.setTxn id txn).discarded = s.discarded := rfl

@[simp] theorem discarded_setManager (s : System P) (node : Int) (tm : TxnManager P) :
    (s.setManager node tm).discarded = s.discarded := rfl

@[simp] theorem discarded_emit (s : System P) (node : Int) (id : TransactionID) (msgs : List (Message P)) :
    (s.emit node id msgs).discarded = s.discarded := rfl

@[simp] theorem discarded_execute (s : System P) (node : Int) (operations : List CacheUpdateOperation) :
    (s.execute node operations).discarded = s.discarded := rfl

@[simp] theorem discarded_sendMigration (s : System P) (node : Int) (id : TransactionID) (msg : Message P) :
    (s.sendMigration node id msg).discarded = s.discarded := rfl

@[simp] theorem discarded_pushYield (s : System P) (id : TransactionID) (cmd : YieldCommand P) :
    (s.pushYield id cmd).discarded = s.discarded := rfl

@[simp] theorem discarded_pushResume (s : System P) (id : TransactionID) (value : ResumeValue P) :
    (s.pushResume id value).discarded = s.discarded := by
  unfold pushResume
  split <;> rfl

theorem discarded_foldl {β : Type} {f : System P → β → System P} (one : ∀ s item, (f s item).discarded = s.discarded) :
    ∀ (items : List β) (s : System P), (items.foldl f s).discarded = s.discarded
  | [], _ => rfl
  | item :: rest, s => (discarded_foldl one rest (f s item)).trans (one s item)

@[simp] theorem discarded_routeMessage (s : System P) (node : Int) (msg : Message P) :
    (s.routeMessage node msg).discarded = s.discarded := by
  refine (discarded_foldl ?_ _ _).trans (discarded_foldl ?_ _ _)
  · intro t mtxn
    unfold resumeMigrated
    split <;> simp
  · intro t id
    unfold resumeLocal
    split <;> simp

@[simp] theorem discarded_handleMigrationRequest (s : System P) (node : Int) (msg : Message P) :
    (s.handleMigrationRequest node msg).discarded = s.discarded := by
  unfold handleMigrationRequest
  split <;> simp

@[simp] theorem discarded_processYields (s : System P) (node : Int) (id : TransactionID) :
    (s.processYields node id).discarded = s.discarded := by
  unfold processYields
  split
  · rfl
  · unfold handleYieldCommand
    split
    · simp
    · dsimp only
      split <;> simp
    · simp
    · simp
    · simp

@[simp] theorem discarded_processMigratedYields (s : System P) (node : Int) (mtxn : MigratedTxn) :
    (s.processMigratedYields node mtxn).discarded = s.discarded := by
  unfold processMigratedYields
  split
  · rfl
  · unfold handleMigratedYield
    dsimp only
    split <;> simp

end System

/-! ### Waiting -/

/-- The command makes its transaction wait for such a message. -/
def YieldCommand.Awaits (cmd : YieldCommand P) (msg : Message P) : Prop :=
  cmd.type = .waitForMessage ∧ ∃ wait, cmd.waitFor = some wait ∧ matchesWait msg wait = true

/-- The transaction that the message is addressed to waits for such a message. -/
def Awaited (s : System P) (msg : Message P) : Prop :=
  ∃ cmd, (s.txns msg.transactionID).phase = .yielding cmd ∧ cmd.Awaits msg

/-- The message is still to be routed, or was emitted by a manager. -/
def InFlight (s : System P) (msg : Message P) : Prop :=
  (∃ node rest, (s.managers node).tick = .routing rest ∧ msg ∈ rest) ∨ msg ∈ s.emitted.map Emission.msg

/-- A transaction waits and has nothing to resume it, a message it waits for has
    been consumed, and no other such message is in flight. -/
structure Lost (s : System P) (msg : Message P) : Prop where
  awaited : Awaited s msg
  blocked : (s.txns msg.transactionID).resumeCh = []
  consumed : msg ∈ s.discarded
  last : ∀ other : Message P, other.transactionID = msg.transactionID → Awaited s other → ¬ InFlight s other

/-! ### Goroutines -/

theorem phase_setTxn {s : System P} {id other : TransactionID} {txn : Txn P} (same : txn.phase = (s.txns id).phase) :
    ((s.setTxn id txn).txns other).phase = (s.txns other).phase := by
  rw [txns_setTxn]
  split
  · next here => rw [here,same]
  · rfl

theorem phase_pushYield (s : System P) (id other : TransactionID) (cmd : YieldCommand P) :
    ((s.pushYield id cmd).txns other).phase = (s.txns other).phase :=
  phase_setTxn (s := s) rfl

theorem phase_handleMigrationRequest (s : System P) (node : Int) (msg : Message P) (id : TransactionID) :
    ((s.handleMigrationRequest node msg).txns id).phase = (s.txns id).phase := by
  unfold System.handleMigrationRequest
  split
  · exact (SameTables.pushResume (SameTables.refl _)).phase id
  · rfl

theorem phase_processYields (s : System P) (node : Int) (id other : TransactionID) :
    ((s.processYields node id).txns other).phase = (s.txns other).phase := by
  unfold System.processYields
  split
  · rfl
  · next cmd rest _ =>
    by_cases leaves : cmd.type = .migrateTo
    · rw [tables_handleYieldCommand_migrate _ node id cmd leaves]
      exact phase_setTxn (s := s) rfl
    · exact ((SameTables.handleYieldCommand _ node id cmd leaves).phase other).trans (phase_setTxn rfl)

theorem phase_processMigratedYields (s : System P) (node : Int) (mtxn : MigratedTxn) (other : TransactionID) :
    ((s.processMigratedYields node mtxn).txns other).phase = (s.txns other).phase := by
  unfold System.processMigratedYields
  split
  · rfl
  · next cmd rest _ =>
    by_cases leaves : cmd.type = .migrateTo
    · simp only [System.handleMigratedYield,leaves]
      exact phase_setTxn (s := s) rfl
    · by_cases ends : cmd.type = .complete
      · simp only [System.handleMigratedYield,ends]
        exact phase_setTxn (s := s) rfl
      · exact ((SameTables.handleMigratedYield _ node mtxn cmd leaves ends).phase other).trans (phase_setTxn rfl)

section
variable [DecidableEq P]

/-- A step lets a goroutine be, lets it run or ends it, or it is its yield. -/
theorem phase_of_step {s s' : System P} {action : Action P} (stepped : s.step action = some s') (id : TransactionID) :
    (s'.txns id).phase = (s.txns id).phase ∨ (s'.txns id).phase = .running ∨ (s'.txns id).phase = .exited ∨
      ∃ cmd, action = .yield id cmd ∧ (s'.txns id).phase = .yielding cmd := by
  have put : ∀ (t : System P) (other : TransactionID) (txn : Txn P),
      ((t.setTxn other txn).txns id).phase = (t.txns id).phase ∨ ((t.setTxn other txn).txns id).phase = txn.phase := by
    intro t other txn
    rw [txns_setTxn]
    split
    · exact .inr rfl
    · exact .inl rfl
  cases System.step_stepped stepped with
  | start => exact (put s _ _).imp_right .inl
  | send => exact .inl (phase_pushYield s _ id _)
  | @yield other cmd =>
    rw [txns_setTxn]
    split
    · next here =>
      subst here
      exact .inr (.inr (.inr ⟨cmd,rfl,rfl⟩))
    · exact .inl (phase_pushYield s _ id _)
  | resume => exact (put s _ _).imp_right .inl
  | giveUp => exact (put s _ _).imp_right .inl
  | complete => exact .inl (phase_pushYield s _ id _)
  | completeResult =>
    rw [(SameTables.pushResume (SameTables.refl _)).phase]
    exact .inl (phase_pushYield s _ id _)
  | exit => exact (put s _ _).imp_right (fun ended => .inr (.inl ended))
  | arrive => exact .inl (phase_handleMigrationRequest _ _ _ _)
  | route => exact .inl ((SameTables.route _ _ _).phase id)
  | process => exact .inl (phase_processYields _ _ _ _)
  | processMigrated => exact .inl (phase_processMigratedYields _ _ _ _)
  | _ => exact .inl rfl

/-- Only a yield makes a goroutine wait. -/
theorem yielding_of_step {s s' : System P} {action : Action P} (stepped : s.step action = some s') {id : TransactionID}
    {cmd : YieldCommand P} (yielding : (s'.txns id).phase = .yielding cmd) :
    (s.txns id).phase = .yielding cmd ∨ action = .yield id cmd := by
  rcases phase_of_step stepped id with same | runs | ended | ⟨cmd',rfl,yields⟩
  · exact .inl (same.symm.trans yielding)
  · cases runs.symm.trans yielding
  · cases ended.symm.trans yielding
  · cases yields.symm.trans yielding
    exact .inr rfl

/-- What has not started after a step had not started before it. -/
theorem unstarted_of_step {s s' : System P} {action : Action P} (stepped : s.step action = some s') {id : TransactionID}
    (unstarted : (s'.txns id).phase = .notStarted) : (s.txns id).phase = .notStarted := by
  rcases phase_of_step stepped id with same | runs | ended | ⟨cmd,_,yields⟩
  · exact same.symm.trans unstarted
  · cases runs.symm.trans unstarted
  · cases ended.symm.trans unstarted
  · cases yields.symm.trans unstarted

theorem phase_of_route {s s' : System P} {node : Int} (stepped : s.step (.routeNext node) = some s')
    (id : TransactionID) : (s'.txns id).phase = (s.txns id).phase := by
  cases System.step_stepped stepped with
  | arrive => exact phase_handleMigrationRequest _ _ _ _
  | ignore => rfl
  | route => exact (SameTables.route _ _ _).phase id

theorem yielding_of_yield {s s' : System P} {id : TransactionID} {cmd : YieldCommand P}
    (stepped : s.step (.yield id cmd) = some s') : (s'.txns id).phase = .yielding cmd := by
  cases System.step_stepped stepped
  rw [txns_setTxn,if_pos rfl]

/-- Only the routing of a response that does not resume its live transaction
    discards something. -/
theorem discarded_of_step {s s' : System P} {action : Action P} (stepped : s.step action = some s') {msg : Message P}
    (discarded : msg ∈ s'.discarded) : msg ∈ s.discarded ∨
      ∃ node, action = .routeNext node ∧ NextMessage s node msg ∧ msg.IsResponse ∧
        s.live msg.transactionID = true ∧ s.resumes node msg msg.transactionID = false := by
  cases System.step_stepped stepped with
  | @route node first rest routing ordinary kind =>
    unfold System.route at discarded
    dsimp only at discarded
    split at discarded
    · next missed =>
      rcases List.mem_append.mp discarded with old | new
      · rw [System.discarded_routeMessage] at old
        exact .inl old
      · obtain rfl := List.mem_singleton.mp new
        rw [resumes_setTick,Bool.and_eq_true,Bool.not_eq_true'] at missed
        exact .inr ⟨node,rfl,⟨rest,routing⟩,⟨ordinary,kind⟩,missed⟩
    · rw [System.discarded_routeMessage] at discarded
      exact .inl discarded
  | arrive =>
    rw [System.discarded_handleMigrationRequest] at discarded
    exact .inl discarded
  | process =>
    rw [System.discarded_processYields] at discarded
    exact .inl discarded
  | processMigrated =>
    rw [System.discarded_processMigratedYields] at discarded
    exact .inl discarded
  | completeResult =>
    rw [System.discarded_pushResume] at discarded
    exact .inl discarded
  | _ => exact .inl discarded

end

/-! ### Runs -/

/-- The transaction that the message is addressed to waits for such a message, or
    begins to in one of the steps that follow. -/
def AwaitedIn (s : System P) (steps : List (System P × Action P × System P)) (msg : Message P) : Prop :=
  Awaited s msg ∨ ∃ t cmd t', (t,.yield msg.transactionID cmd,t') ∈ steps ∧ cmd.Awaits msg

/-- Each response to a live transaction that waits for it, then or later in the
    run, finds the wait registered where it is routed, and room in the channel. -/
def Prompt : List (System P × Action P × System P) → Prop
  | [] => True
  | (s,action,_) :: after =>
    (∀ node msg, action = .routeNext node → NextMessage s node msg → msg.IsResponse →
      s.live msg.transactionID = true → AwaitedIn s after msg → s.resumes node msg msg.transactionID = true) ∧
    Prompt after

/-- No message that was consumed without resuming its transaction is one that
    the transaction waits for. -/
theorem not_overlooked [DecidableEq P] : ∀ (actions : List (Action P)) (s : System P),
    (∀ msg ∈ s.discarded, ¬ AwaitedIn s (trace System.step s actions) msg) → Prompt (trace System.step s actions) →
    ∀ {t action t'}, (t,action,t') ∈ trace System.step s actions → ∀ msg ∈ t'.discarded, ¬ Awaited t' msg
  | [], _, _, _, _, _, _, taken => by simp [trace] at taken
  | action :: rest, s, clean, prompt, t, other, t', taken => by
    rw [trace] at clean prompt taken
    split at taken
    · next s' stepped =>
      simp only [stepped] at clean prompt
      have kept : ∀ msg ∈ s'.discarded, ¬ AwaitedIn s' (trace System.step s' rest) msg := by
        intro msg discarded awaited
        -- what waits after the step waited before it, or this step made it wait
        have awaitedBefore : AwaitedIn s ((s,action,s') :: trace System.step s' rest) msg := by
          rcases awaited with ⟨cmd,yielding,awaits⟩ | ⟨u,cmd,u',later,awaits⟩
          · rcases yielding_of_step stepped yielding with before | rfl
            · exact .inl ⟨cmd,before,awaits⟩
            · exact .inr ⟨s,cmd,s',List.mem_cons_self ..,awaits⟩
          · exact .inr ⟨u,cmd,u',List.mem_cons_of_mem _ later,awaits⟩
        rcases discarded_of_step stepped discarded with old | ⟨node,rfl,next,response,live,missed⟩
        · exact clean msg old awaitedBefore
        · have awaitedNow : AwaitedIn s (trace System.step s' rest) msg := by
            rcases awaitedBefore with now | ⟨u,cmd,u',later,awaits⟩
            · exact .inl now
            · rcases List.mem_cons.mp later with here | after
              · cases here
              · exact .inr ⟨u,cmd,u',after,awaits⟩
          have resumed := prompt.1 node msg rfl next response live awaitedNow
          rw [missed] at resumed
          cases resumed
      rcases List.mem_cons.mp taken with here | later
      · cases here
        exact fun msg discarded awaited => kept msg discarded (.inl awaited)
      · exact not_overlooked rest s' kept prompt.2 later
    · exact absurd taken (by simp)

/-- A response that resumes its transaction is put on its channel. -/
theorem OneHolder.delivers [DecidableEq P] {s s' : System P} (one : OneHolder s) {node : Int} {msg : Message P}
    (next : NextMessage s node msg) (response : msg.IsResponse) (stepped : s.step (.routeNext node) = some s')
    (resumed : s.resumes node msg msg.transactionID = true) :
    (s'.txns msg.transactionID).resumeCh = (s.txns msg.transactionID).resumeCh ++ [.message msg] ∧
      s'.discarded = s.discarded := by
  refine ⟨by rw [one.resumeCh_step next response stepped,resumed]; rfl,?_⟩
  obtain ⟨rest,at_routing⟩ := next
  simp only [System.step,System.routeNext,at_routing,response.1,Bool.false_eq_true,if_false,response.2,
    Option.some.injEq] at stepped
  subst stepped
  unfold System.route
  rw [resumes_setTick,resumed]
  simp [System.setTick]

/-- A response that does not resume its live transaction is discarded. -/
theorem discarded_of_missed [DecidableEq P] {s s' : System P} {node : Int} {msg : Message P}
    (next : NextMessage s node msg) (response : msg.IsResponse) (stepped : s.step (.routeNext node) = some s')
    (live : s.live msg.transactionID = true) (missed : s.resumes node msg msg.transactionID = false) :
    msg ∈ s'.discarded := by
  obtain ⟨rest,at_routing⟩ := next
  simp only [System.step,System.routeNext,at_routing,response.1,Bool.false_eq_true,if_false,response.2,
    Option.some.injEq] at stepped
  subst stepped
  have unmoved : (s.setTick node (.routing rest)).live msg.transactionID = true := live
  unfold System.route
  rw [resumes_setTick,missed,unmoved]
  simp

theorem discarded_kept [DecidableEq P] {s s' : System P} {action : Action P} (stepped : s.step action = some s')
    {msg : Message P} (discarded : msg ∈ s.discarded) : msg ∈ s'.discarded := by
  cases System.step_stepped stepped with
  | route =>
    unfold System.route
    dsimp only
    split
    · rw [System.discarded_routeMessage]
      exact List.mem_append_left _ discarded
    · rwa [System.discarded_routeMessage]
  | arrive => rwa [System.discarded_handleMigrationRequest]
  | process => rwa [System.discarded_processYields]
  | processMigrated => rwa [System.discarded_processMigratedYields]
  | completeResult => rwa [System.discarded_pushResume]
  | _ => exact discarded

/-- What is discarded stays so for the rest of the run. -/
theorem discarded_of_trace [DecidableEq P] : ∀ {actions : List (Action P)} {s t t' : System P} {action : Action P}
    {msg : Message P}, msg ∈ s.discarded → (t,action,t') ∈ trace System.step s actions → msg ∈ t'.discarded
  | [], _, _, _, _, _, _, taken => by simp [trace] at taken
  | first :: rest, s, t, t', action, msg, discarded, taken => by
    rw [trace] at taken
    split at taken
    · next s' stepped =>
      have after := discarded_kept stepped discarded
      rcases List.mem_cons.mp taken with here | later
      · cases here
        exact after
      · exact discarded_of_trace after later
    · exact absurd taken (by simp)

/-- The converse: if no transaction ever waits for a message that was consumed
    without resuming it, every response was in time. -/
theorem prompt_of_not_overlooked [DecidableEq P] : ∀ (actions : List (Action P)) (s : System P),
    (∀ {t action t'}, (t,action,t') ∈ trace System.step s actions → ∀ msg ∈ t'.discarded, ¬ Awaited t' msg) →
      Prompt (trace System.step s actions)
  | [], _, _ => trivial
  | action :: rest, s, clean => by
    rw [trace]
    split
    · next s' stepped =>
      simp only [trace,stepped] at clean
      refine ⟨?_,prompt_of_not_overlooked rest s' (fun taken => clean (List.mem_cons_of_mem _ taken))⟩
      rintro node msg rfl next response live awaited
      by_contra notResumed
      have missed : s.resumes node msg msg.transactionID = false := Bool.eq_false_iff.mpr notResumed
      have discarded := discarded_of_missed next response stepped live missed
      rcases awaited with ⟨cmd,yielding,awaits⟩ | ⟨t,cmd,t',later,awaits⟩
      · refine clean (List.mem_cons_self ..) msg discarded ⟨cmd,?_,awaits⟩
        exact (phase_of_route stepped _).trans yielding
      · refine clean (List.mem_cons_of_mem _ later) msg (discarded_of_trace discarded later) ⟨cmd,?_,awaits⟩
        exact yielding_of_yield (trace_reachable .refl later).2
    · trivial

theorem Prompt.after : ∀ (before : List (System P × Action P × System P)) {after : List (System P × Action P × System P)},
    Prompt (before ++ after) → Prompt after
  | [], _, prompt => prompt
  | (_,_,_) :: rest, _, prompt => Prompt.after rest prompt.2

/-- A transaction never waits for a message that was consumed without resuming it
    exactly when every response that is awaited, then or later, finds its wait
    registered; and then none is lost, and each is put on its transaction's
    channel. -/
theorem no_response_lost [DecidableEq P] (actions : List (Action P)) :
    (Prompt (trace System.step System.initial actions) ↔
      ∀ {s action s'}, (s,action,s') ∈ trace System.step System.initial actions →
        ∀ msg ∈ s'.discarded, ¬ Awaited s' msg) ∧
    (Prompt (trace System.step System.initial actions) →
      (∀ {s action s'}, (s,action,s') ∈ trace System.step System.initial actions → ∀ msg, ¬ Lost s' msg) ∧
      ∀ {before after s s' node msg},
        trace System.step System.initial actions = before ++ (s,.routeNext node,s') :: after →
        NextMessage s node msg → msg.IsResponse → s.live msg.transactionID = true → AwaitedIn s after msg →
        (s'.txns msg.transactionID).resumeCh = (s.txns msg.transactionID).resumeCh ++ [.message msg] ∧
          s'.discarded = s.discarded) := by
  have clean : ∀ msg ∈ (System.initial : System P).discarded,
      ¬ AwaitedIn System.initial (trace System.step System.initial actions) msg := by
    intro msg discarded
    cases discarded
  refine ⟨⟨not_overlooked actions _ clean,prompt_of_not_overlooked actions _⟩,fun prompt => ⟨?_,?_⟩⟩
  · intro s action s' taken msg lost
    exact not_overlooked actions _ clean prompt taken msg lost.consumed lost.awaited
  · intro before after s s' node msg split next response live awaited
    have here : Prompt ((s,.routeNext node,s') :: after) := Prompt.after before (split ▸ prompt)
    have resumed := here.1 node msg rfl next response live awaited
    obtain ⟨reached,stepped⟩ := trace_reachable .refl (split ▸ List.mem_append_right before (List.mem_cons_self ..))
    exact (oneHolder_of_reaches reached).delivers next response stepped resumed

/-- A transaction sends a request, and yields its wait for the response. The
    Tick that has the response routes it before it handles the wait. -/
def lateWait : List (Action Unit) :=
  [.start 0,.send ⟨0,1⟩ ⟨⟨0,0⟩,100,0,1,.none⟩,
    .tickBegin 0 [],.snapshot 0 [⟨0,1⟩],.processNext 0,.snapshotMigrated 0 [],.tickEnd 0,
    .yield ⟨0,1⟩ { type := .waitForMessage, waitFor := some { type := 101 } },
    .tickBegin 0 [⟨⟨0,1⟩,101,1,0,.none⟩],.routeNext 0,.snapshot 0 [⟨0,1⟩],.processNext 0,.snapshotMigrated 0 []]

def lateWaitEnd : System Unit :=
  (runActions System.step (fun _ _ => True) lateWait System.initial).get (by decide +kernel)

/-- The wait is registered, and its response is lost. -/
theorem response_before_wait : ¬ ∀ {s : System Unit}, Reachable System.step System.initial s → ∀ msg, ¬ Lost s msg := by
  intro none
  have ran : runActions System.step (fun _ _ => True) lateWait System.initial = some lateWaitEnd :=
    (Option.some_get _).symm
  refine none (reaches_runActions lateWait ran) ⟨⟨0,1⟩,101,1,0,.none⟩ ⟨?_,by decide +kernel,by decide +kernel,?_⟩
  · exact ⟨{ type := .waitForMessage, waitFor := some { type := 101 } },by decide +kernel,rfl,{ type := 101 },rfl,rfl⟩
  · rintro other same ⟨cmd,yielding,awaits⟩ inFlight
    rw [same] at yielding
    have waits : (lateWaitEnd.txns ⟨0,1⟩).phase =
        .yielding { type := .waitForMessage, waitFor := some { type := 101 } } := by decide +kernel
    obtain rfl : { type := .waitForMessage, waitFor := some { type := 101 } } = cmd := by
      injection waits.symm.trans yielding
    obtain ⟨_,wait,waitFor,fits⟩ := awaits
    cases waitFor
    rcases inFlight with ⟨node,rest,routing,_⟩ | emitted
    · -- no manager but that of node 0 has done anything, and this one is past its routing
      have at_zero : (lateWaitEnd.managers 0).tick = .processingMigrated [] := rfl
      have positive : ∀ k : Nat, (lateWaitEnd.managers (Int.ofNat (k + 1))).tick = .idle := fun _ => rfl
      have negative : ∀ k : Nat, (lateWaitEnd.managers (Int.negSucc k)).tick = .idle := fun _ => rfl
      rcases node with (_ | k) | k
      · cases at_zero.symm.trans routing
      · cases (positive k).symm.trans routing
      · cases (negative k).symm.trans routing
    · have sent : lateWaitEnd.emitted.map Emission.msg = [⟨⟨0,1⟩,100,0,1,.none⟩] := by decide +kernel
      rw [sent] at emitted
      obtain rfl := List.mem_singleton.mp emitted
      exact absurd fits (by decide)

end FlowSim.Transaction
