import Bluesafe.Async.Traces
import Bluesafe.ForStd.Except
import Bluesafe.Settle.Reconciler

/-!
# The isolation of the monthly run

The monthly run settles the locked contracts one after the other, and a contract that fails is
put into the retry queue. Two failures stop the run: a row that cannot be decrypted rejects
the whole list before the first attempt, and a rejected queue job leaves the loop. So every
locked contract has its attempt, and every failed attempt its job, if and only if all rows can
be decrypted and the queue rejects no job but that of the last contract
(`monthly_run_isolated`).

The statements are about traces: every answer and every rejection of every call is possible.
-/

namespace Bluesafe.Settle

open Async
open Bluesafe.Ops (truthy)

/-! ## The calls that are counted -/

/-- The first call of `reconcileContract`, which no other function makes. -/
def isFindMatched (contractId yearMonth : String) : Event calls String → Bool
  | ⟨.findMatched contractId' yearMonth', _⟩ => contractId' = contractId && yearMonth' = yearMonth
  | _ => false

def isAddRetryJob (job : XrplTxRetryJob) : Event calls String → Bool
  | ⟨.addRetryJob job', _⟩ => job' = job
  | _ => false

/-- The attempts to settle the contract. -/
def attemptsOf (contractId yearMonth : String) (evs : List (Event calls String)) : Nat :=
  evs.countP (isFindMatched contractId yearMonth)

/-- The jobs that the run has put into the queue for the contract, accepted or not. -/
def jobsOf (contractId yearMonth : String) (evs : List (Event calls String)) : Nat :=
  evs.countP (isAddRetryJob ⟨contractId, yearMonth⟩)

variable {config : Config} {contractId yearMonth : String} {evs : List (Event calls String)}

/-- The attempts of two logs. -/
theorem attemptsOf_append (first rest : List (Event calls String)) :
    attemptsOf contractId yearMonth (first ++ rest) =
      attemptsOf contractId yearMonth first + attemptsOf contractId yearMonth rest :=
  List.countP_append

/-- The jobs of two logs. -/
theorem jobsOf_append (first rest : List (Event calls String)) :
    jobsOf contractId yearMonth (first ++ rest) =
      jobsOf contractId yearMonth first + jobsOf contractId yearMonth rest :=
  List.countP_append

/-- The call of `reconcileContract` for the contract has thrown. -/
def AttemptFailed (config : Config) (contractId yearMonth : String)
    (evs : List (Event calls String)) : Prop :=
  ∃ before attempt after e, evs = before ++ attempt ++ after ∧
    Traces (reconcileContract config contractId yearMonth) attempt (.error e)

/-- Every contract of the list has one attempt, and one job exactly if it failed. -/
structure Isolated (config : Config) (yearMonth : String) (rows : List ContractRow)
    (evs : List (Event calls String)) : Prop where
  attempted : ∀ row ∈ rows, attemptsOf row.id yearMonth evs = 1
  enqueued : ∀ row ∈ rows, AttemptFailed config row.id yearMonth evs →
    jobsOf row.id yearMonth evs = 1
  not_enqueued : ∀ row ∈ rows, ¬ AttemptFailed config row.id yearMonth evs →
    jobsOf row.id yearMonth evs = 0

/-! ## One attempt -/

/-- The calls inside an attempt. -/
def Inside (op : Call) : Prop :=
  (∀ contractId yearMonth, op ≠ .findMatched contractId yearMonth) ∧ ∀ job, op ≠ .addRetryJob job

/-- A result that may be an error makes no call. -/
theorem only_orThrow {α : Type} {P : Call → Prop} (r : Except String α) :
    Only (I := calls) P (orThrow r) := by
  cases r with
  | ok a => exact Only.pure
  | error e => exact Only.throw

/-- The look-up of a contract stays inside its attempt. -/
theorem only_settleableContract (contractId : String) :
    Only (I := calls) Inside (settleableContract config contractId) := by
  unfold settleableContract
  apply Only.bind (Only.call ⟨nofun, nofun⟩)
  intro found
  -- the contract, its status, its seed and its address: every failure is before a payment
  cases found with
  | none => exact Only.throw
  | some row =>
    apply Only.bind (only_orThrow _)
    intro contract
    apply Only.ite Only.throw
    cases truthy contract.contractAccountSeed with
    | none => exact Only.throw
    | some seed =>
      cases truthy contract.contractAccountAddress with
      | none => exact Only.throw
      | some address => exact Only.pure

/-- So does the payment. -/
theorem only_paySettlement {contract : ContractDto} {seed address usageHash : String}
    {usage : MonthlyUsage} : Only (I := calls) Inside
      (paySettlement config contract seed address contractId yearMonth usageHash usage) := by
  unfold paySettlement submitXrpPayment
  apply Only.bind (only_orThrow _)
  intro memo
  apply Only.bind (only_orThrow _)
  intro classicAddress
  apply Only.ite Only.throw
  apply Only.ite Only.throw
  exact Only.bind (Only.call ⟨nofun, nofun⟩) fun _ => only_orThrow _

/-- And the report. -/
theorem only_sendMonthlyReportSafely {recordId : String} {contract : ContractDto}
    {usage : MonthlyUsage} {txHash : String} : Only (I := calls) Inside
      (sendMonthlyReportSafely config recordId contract yearMonth usage txHash) := by
  unfold sendMonthlyReportSafely
  cases truthy contract.tenantEmail with
  | none => exact Only.pure
  | some toAddress =>
    apply Only.tryCatch _ fun _ => Only.pure
    apply Only.bind (Only.call ⟨nofun, nofun⟩)
    intro _
    apply Only.bind (Only.call ⟨nofun, nofun⟩)
    intro now
    exact Only.call ⟨nofun, nofun⟩

/-- And the row of the attempt. -/
theorem only_recordAttempt {contract : ContractDto} {usageHash : String} {usage : MonthlyUsage}
    {outcome : Except String String} : Only (I := calls) Inside
      (recordAttempt config contract contractId yearMonth usageHash usage outcome) := by
  unfold recordAttempt
  apply Only.bind (Only.call ⟨nofun, nofun⟩)
  intro record
  cases outcome with
  | error e => exact Only.throw
  | ok txHash =>
    exact Only.ite (Only.bind only_sendMonthlyReportSafely fun _ => Only.pure) Only.pure

/-- An attempt begins with its look-up and makes no other one. -/
theorem traces_reconcileContract {x : Except String Reconciliation}
    (h : Traces (reconcileContract config contractId yearMonth) evs x) :
    ∃ res rest, evs = ⟨.findMatched contractId yearMonth, res⟩ :: rest ∧
      ∀ ev ∈ rest, Inside ev.op := by
  unfold reconcileContract at h
  rw [traces_call_bind] at h
  obtain ⟨e, -, rfl⟩ | ⟨found, rest, rfl, h⟩ := h
  -- the look-up itself fails, and nothing follows
  · exact ⟨_, [], rfl, by simp⟩
  · refine ⟨_, rest, rfl, Traces.forall_of_only ?_ h⟩
    cases found with
    | some alreadyMatched => exact Only.pure
    | none =>
      -- what follows the look-up stays inside the attempt
      apply Only.bind (only_settleableContract contractId)
      intro settleable
      apply Only.bind (Only.call ⟨nofun, nofun⟩)
      intro usage
      apply Only.bind (Only.tryCatch (Only.map only_paySettlement) fun _ => Only.pure)
      intro outcome
      exact only_recordAttempt

/-! ## One iteration -/

/-- The trace of one iteration: an attempt, and a job after a failed one. -/
inductive Iterates (config : Config) (yearMonth : String) (contractId : String) :
    List (Event calls String) → Except String Unit → Prop
  | settled {attempt : List (Event calls String)} {record : Reconciliation}
      (h : Traces (reconcileContract config contractId yearMonth) attempt (.ok record)) :
      Iterates config yearMonth contractId attempt (.ok ())
  | enqueued {attempt : List (Event calls String)} {e : String} {res : Except String Unit}
      (h : Traces (reconcileContract config contractId yearMonth) attempt (.error e)) :
      Iterates config yearMonth contractId
        (attempt ++ [⟨.addRetryJob ⟨contractId, yearMonth⟩, res⟩]) res

/-- The trace of one contract is that of an attempt, perhaps with a job behind it. -/
theorem traces_reconcileOrEnqueue {contract : ContractDto} {x : Except String Unit}
    (h : Traces (reconcileOrEnqueue config yearMonth contract) evs x) :
    Iterates config yearMonth contract.id evs x := by
  unfold reconcileOrEnqueue at h
  rw [traces_tryCatch] at h
  -- the attempt ends well, or its error is followed by the job
  rcases h with ⟨_, rfl, h⟩ | ⟨e, attempt, rest, rfl, h, hjob⟩
  · rw [traces_bind] at h
    obtain ⟨e, he, -⟩ | ⟨record, first, rest, rfl, hattempt, hrest⟩ := h
    · cases he
    · obtain ⟨rfl, -⟩ := traces_pure.mp hrest
      rw [List.append_nil]
      exact .settled hattempt
  · rw [traces_bind] at h
    obtain ⟨e', he, hattempt⟩ | ⟨record, first, rest', rfl, hattempt, hrest⟩ := h
    · cases he
      rw [traces_call] at hjob
      subst hjob
      exact .enqueued hattempt
    · obtain ⟨-, hx⟩ := traces_pure.mp hrest
      cases hx

/-- Nothing that marks an attempt happens inside of one. -/
theorem countP_inside {p : Event calls String → Bool} {rest : List (Event calls String)}
    (hp : ∀ ev, p ev = true → ¬ Inside ev.op) (h : ∀ ev ∈ rest, Inside ev.op) : rest.countP p = 0 := by
  rw [List.countP_eq_zero]
  intro ev hev hpev
  exact hp ev hpev (h ev hev)

/-- The look-up that begins an attempt is outside. -/
theorem not_inside_findMatched {ev : Event calls String}
    (h : isFindMatched contractId yearMonth ev = true) : ¬ Inside ev.op := by
  intro hin
  unfold isFindMatched at h
  split at h
  · exact hin.1 _ _ rfl
  · cases h

/-- The job that follows it, too. -/
theorem not_inside_addRetryJob {job : XrplTxRetryJob} {ev : Event calls String}
    (h : isAddRetryJob job ev = true) : ¬ Inside ev.op := by
  intro hin
  unfold isAddRetryJob at h
  split at h
  · exact hin.2 _ rfl
  · cases h

/-- An attempt is one attempt of its contract, and puts nothing into the queue. -/
theorem attemptsOf_attempt {x : Except String Reconciliation} {id : String}
    (h : Traces (reconcileContract config id yearMonth) evs x) :
    attemptsOf contractId yearMonth evs = if id = contractId then 1 else 0 := by
  obtain ⟨res, rest, rfl, hin⟩ := traces_reconcileContract h
  unfold attemptsOf
  rw [List.countP_cons, countP_inside (fun _ => not_inside_findMatched) hin]
  simp [isFindMatched]

/-- An attempt enqueues no job. -/
theorem jobsOf_attempt {x : Except String Reconciliation} {id : String}
    (h : Traces (reconcileContract config id yearMonth) evs x) :
    jobsOf contractId yearMonth evs = 0 := by
  obtain ⟨res, rest, rfl, hin⟩ := traces_reconcileContract h
  unfold jobsOf
  rw [List.countP_cons, countP_inside (fun _ => not_inside_addRetryJob) hin]
  simp [isAddRetryJob]

/-- The loop attempts a contract once when its turn comes. -/
theorem attemptsOf_iterates {x : Except String Unit} {id : String}
    (h : Iterates config yearMonth id evs x) :
    attemptsOf contractId yearMonth evs = if id = contractId then 1 else 0 := by
  cases h with
  | settled h => exact attemptsOf_attempt h
  | enqueued h =>
    rw [attemptsOf_append]
    exact attemptsOf_attempt h

/-- An iteration puts nothing into the queue for other contracts. -/
theorem jobsOf_iterates_of_ne {x : Except String Unit} {id : String}
    (h : Iterates config yearMonth id evs x) (hne : id ≠ contractId) :
    jobsOf contractId yearMonth evs = 0 := by
  cases h with
  | settled h => exact jobsOf_attempt h
  | enqueued h =>
    rw [jobsOf_append, jobsOf_attempt h]
    simp [jobsOf, isAddRetryJob, hne]

/-! ## The loop -/

/-- A trace in which every contract has its iteration, in the order of the list. -/
inductive Completes (config : Config) (yearMonth : String) :
    List String → List (Event calls String) → Prop
  | nil : Completes config yearMonth [] []
  | cons {id : String} {ids : List String} {first rest : List (Event calls String)}
      {x : Except String Unit} (h : Iterates config yearMonth id first x)
      (hrest : Completes config yearMonth ids rest) :
      Completes config yearMonth (id :: ids) (first ++ rest)

/-- The queue rejects no job but that of the last contract. -/
def QueueAccepts (ids : List String) (evs : List (Event calls String)) : Prop :=
  ∀ job e, (⟨.addRetryJob job, .error e⟩ : Event calls String) ∈ evs →
    ids.getLast? = some job.contractId

/-- An iteration throws when its job is rejected, and this is its last call. -/
theorem rejected_of_iterates {id e : String} (h : Iterates config yearMonth id evs (.error e)) :
    (⟨.addRetryJob ⟨id, yearMonth⟩, .error e⟩ : Event calls String) ∈ evs := by
  generalize hx : (Except.error e : Except String Unit) = x at h
  cases h with
  | settled h => cases hx
  | enqueued h =>
    rw [← hx]
    simp

/-- A rejected job in an iteration is its own, and the iteration throws. -/
theorem iterates_of_rejected {id e : String} {job : XrplTxRetryJob} {x : Except String Unit}
    (h : Iterates config yearMonth id evs x)
    (hjob : (⟨.addRetryJob job, .error e⟩ : Event calls String) ∈ evs) :
    job.contractId = id ∧ x = .error e := by
  -- within an attempt no job is enqueued, so the rejection is not one of its calls
  have hattempt : ∀ {attempt : List (Event calls String)} {y : Except String Reconciliation},
      Traces (reconcileContract config id yearMonth) attempt y →
      (⟨.addRetryJob job, .error e⟩ : Event calls String) ∉ attempt := by
    intro attempt y ht hmem
    obtain ⟨res, rest, rfl, hin⟩ := traces_reconcileContract ht
    rcases List.mem_cons.mp hmem with heq | hmem
    · cases heq
    · exact (hin _ hmem).2 job rfl
  cases h with
  | settled ht => exact absurd hjob (hattempt ht)
  | enqueued ht =>
    rcases List.mem_append.mp hjob with hmem | hmem
    · exact absurd hmem (hattempt ht)
    · rw [List.mem_singleton] at hmem
      cases hmem
      exact ⟨rfl, rfl⟩

/-- When the queue accepts every job, the loop comes to its end. -/
theorem completes_of_queueAccepts {contracts : List ContractDto} {x : Except String PUnit}
    (hids : (contracts.map (·.id)).Nodup)
    (h : Traces (forM contracts (reconcileOrEnqueue config yearMonth)) evs x)
    (hqueue : QueueAccepts (contracts.map (·.id)) evs) :
    Completes config yearMonth (contracts.map (·.id)) evs := by
  -- induction on the contracts; the loop ends early at a job that is rejected
  induction contracts generalizing evs with
  | nil =>
    obtain ⟨rfl, -⟩ := traces_pure.mp h
    exact .nil
  | cons c contracts ih =>
    rw [List.map_cons, List.nodup_cons] at hids
    rw [List.forM_cons, traces_bind] at h
    rcases h with ⟨e, rfl, h⟩ | ⟨_, first, rest, rfl, h, hrest⟩
    · -- the job of this contract is rejected, so it is the last one
      have hiterates := traces_reconcileOrEnqueue h
      have hlast := hqueue _ e (rejected_of_iterates hiterates)
      cases contracts with
      | nil =>
        have hcompletes := Completes.cons hiterates .nil
        rwa [List.append_nil] at hcompletes
      | cons c' contracts =>
        rw [List.map_cons, List.map_cons, List.getLast?_cons_cons] at hlast
        exact absurd (List.mem_of_getLast? hlast) hids.1
    -- the iteration ends, and the loop goes on with the others
    · refine .cons (traces_reconcileOrEnqueue h) (ih hids.2 hrest ?_)
      intro job e hjob
      have hlast := hqueue job e (List.mem_append_right _ hjob)
      cases contracts with
      | nil =>
        obtain ⟨rfl, -⟩ := traces_pure.mp hrest
        cases hjob
      | cons c' contracts =>
        rwa [List.map_cons, List.map_cons, List.getLast?_cons_cons] at hlast

/-- And a loop that attempts every contract had its jobs accepted. -/
theorem queueAccepts_of_attempted {contracts : List ContractDto} {x : Except String PUnit}
    (hids : (contracts.map (·.id)).Nodup)
    (h : Traces (forM contracts (reconcileOrEnqueue config yearMonth)) evs x)
    (hattempted : ∀ id ∈ contracts.map (·.id), attemptsOf id yearMonth evs = 1) :
    QueueAccepts (contracts.map (·.id)) evs := by
  induction contracts generalizing evs with
  | nil =>
    obtain ⟨rfl, -⟩ := traces_pure.mp h
    intro job e hjob
    cases hjob
  | cons c contracts ih =>
    rw [List.map_cons, List.nodup_cons] at hids
    rw [List.forM_cons, traces_bind] at h
    intro job e hjob
    rcases h with ⟨e', rfl, h⟩ | ⟨_, first, rest, rfl, h, hrest⟩
    · have hiterates := traces_reconcileOrEnqueue h
      -- there is no attempt for a contract after this one
      cases contracts with
      | nil => rw [(iterates_of_rejected hiterates hjob).1]; rfl
      | cons c' contracts =>
        have hnext := hattempted c'.id (by simp)
        rw [attemptsOf_iterates hiterates, if_neg fun heq => hids.1 (by simp [heq])] at hnext
        cases hnext
    · have hiterates := traces_reconcileOrEnqueue h
      rcases List.mem_append.mp hjob with hjob | hjob
      · cases (iterates_of_rejected hiterates hjob).2
      · have hothers : ∀ id ∈ contracts.map (·.id), attemptsOf id yearMonth rest = 1 := by
          intro id hid
          have hne : c.id ≠ id := fun heq => hids.1 (heq ▸ hid)
          have hboth := hattempted id (List.mem_cons_of_mem _ hid)
          rwa [attemptsOf_append, attemptsOf_iterates hiterates, if_neg hne, Nat.zero_add] at hboth
        have hlast := ih hids.2 hrest hothers job e hjob
        cases contracts with
        | nil => cases hlast
        | cons c' contracts =>
          rw [List.map_cons, List.map_cons, List.getLast?_cons_cons]
          exact hlast

/-! ## The attempts of a complete loop -/

/-- A contract that is not in the list has no attempt and no job. -/
theorem counts_of_notMem {ids : List String} (h : Completes config yearMonth ids evs)
    (hid : contractId ∉ ids) :
    attemptsOf contractId yearMonth evs = 0 ∧ jobsOf contractId yearMonth evs = 0 := by
  induction h with
  | nil => exact ⟨rfl, rfl⟩
  | @cons id ids first rest x h hrest ih =>
    rw [List.mem_cons, not_or] at hid
    have hne : id ≠ contractId := Ne.symm hid.1
    obtain ⟨hattempts, hjobs⟩ := ih hid.2
    rw [attemptsOf_append, jobsOf_append, attemptsOf_iterates h, if_neg hne,
      jobsOf_iterates_of_ne h hne, hattempts, hjobs]
    exact ⟨rfl, rfl⟩

/-- The iteration of a contract of the list: its attempt and its jobs are those of the run. -/
theorem iteration_of_mem {ids : List String} (h : Completes config yearMonth ids evs)
    (hids : ids.Nodup) (hid : contractId ∈ ids) :
    ∃ before iteration after x, evs = before ++ iteration ++ after ∧
      Iterates config yearMonth contractId iteration x ∧ attemptsOf contractId yearMonth evs = 1 ∧
        jobsOf contractId yearMonth evs = jobsOf contractId yearMonth iteration := by
  -- induction on the iterations; the one of the contract is found by its number
  induction h with
  | nil => cases hid
  | @cons id ids first rest x h hrest ih =>
    rw [List.nodup_cons] at hids
    by_cases heq : id = contractId
    · subst heq
      obtain ⟨hattempts, hjobs⟩ := counts_of_notMem hrest hids.1
      refine ⟨[], first, rest, x, rfl, h, ?_, ?_⟩
      · rw [attemptsOf_append, attemptsOf_iterates h, if_pos rfl, hattempts]
      · rw [jobsOf_append, hjobs, Nat.add_zero]
    -- another contract comes first, and adds nothing to the counts
    · have hmem := (List.mem_cons.mp hid).resolve_left (Ne.symm heq)
      obtain ⟨before, iteration, after, y, rfl, hiterates, hattempts, hjobs⟩ := ih hids.2 hmem
      refine ⟨first ++ before, iteration, after, y, by simp, hiterates, ?_, ?_⟩
      · rw [attemptsOf_append, attemptsOf_iterates h, if_neg heq, hattempts]
      · rw [jobsOf_append, jobsOf_iterates_of_ne h heq, Nat.zero_add, hjobs]

/-- With one attempt in the run, it has failed if and only if its iteration has put a job into the
    queue. -/
theorem jobsOf_iteration {before iteration after : List (Event calls String)}
    {x : Except String Unit} (heq : evs = before ++ iteration ++ after)
    (h : Iterates config yearMonth contractId iteration x)
    (hone : attemptsOf contractId yearMonth evs = 1) :
    (AttemptFailed config contractId yearMonth evs ∧ jobsOf contractId yearMonth iteration = 1) ∨
      (¬ AttemptFailed config contractId yearMonth evs ∧
        jobsOf contractId yearMonth iteration = 0) := by
  cases h with
  | @enqueued attempt e _ h =>
    refine .inl ⟨⟨before, attempt, ⟨.addRetryJob ⟨contractId, yearMonth⟩, x⟩ :: after, e, ?_, h⟩, ?_⟩
    · rw [heq]
      simp
    · rw [jobsOf_append, jobsOf_attempt h]
      simp [jobsOf, isAddRetryJob]
  | settled h =>
    refine .inr ⟨?_, jobsOf_attempt h⟩
    rintro ⟨before', attempt', after', e, heq', h'⟩
    -- both begin with the one look-up of the contract
    obtain ⟨res, rest, rfl, -⟩ := traces_reconcileContract h
    obtain ⟨res', rest', rfl, -⟩ := traces_reconcileContract h'
    have hpos : ∀ res, isFindMatched contractId yearMonth
        ⟨.findMatched contractId yearMonth, res⟩ = true := fun _ => by simp [isFindMatched]
    rw [heq] at heq' hone
    simp only [List.append_assoc, List.cons_append] at heq' hone
    have hsame := List.eq_of_countP_eq_one heq' (hpos res) (hpos res') hone
    subst hsame
    obtain ⟨-, hx⟩ := h.unique h' (List.append_cancel_left heq')
    cases hx

/-! ## The run -/

/-- A result that may be an error is traced by no call. -/
theorem traces_orThrow {α : Type} {r x : Except String α} :
    Traces (orThrow r) evs x ↔ evs = [] ∧ x = r := by
  cases r with
  | ok a => exact traces_pure
  | error e => exact traces_throw

/-- All rows can be decrypted. -/
def Decrypts (config : Config) (rows : List ContractRow) : Prop :=
  ∀ row ∈ rows, ∃ dto, row.toDto config.decrypt = .ok dto

/-- What the view of a contract has from its row. -/
theorem fields_toDto {row : ContractRow} {dto : ContractDto}
    (h : row.toDto config.decrypt = .ok dto) : dto.id = row.id ∧ dto.status = row.status := by
  obtain ⟨tenantPii, -, h⟩ := Except.exists_of_bind_eq_ok h
  obtain ⟨landlordPii, -, h⟩ := Except.exists_of_bind_eq_ok h
  dsimp only at h
  -- the seed is decrypted if there is one
  split at h
  · obtain ⟨seed, -, h⟩ := Except.exists_of_bind_eq_ok h
    cases h
    exact ⟨rfl, rfl⟩
  · cases h
    exact ⟨rfl, rfl⟩

/-- The list of the locked contracts is read when all rows can be decrypted, and only then. -/
theorem mapM_toDto (config : Config) (rows : List ContractRow) :
    (Decrypts config rows ∧ ∃ dtos, rows.mapM (ContractRow.toDto config.decrypt) = .ok dtos ∧
      dtos.map (·.id) = rows.map (·.id)) ∨
    (¬ Decrypts config rows ∧ ∃ e, rows.mapM (ContractRow.toDto config.decrypt) = .error e) := by
  -- induction on the rows; the first that cannot be decrypted stops the list
  induction rows with
  | nil => exact .inl ⟨fun _ h => absurd h List.not_mem_nil, [], rfl, rfl⟩
  | cons row rows ih =>
    simp only [List.mapM_cons]
    cases hrow : row.toDto config.decrypt with
    | error e =>
      refine .inr ⟨fun h => ?_, e, rfl⟩
      obtain ⟨dto, hdto⟩ := h row List.mem_cons_self
      rw [hrow] at hdto
      cases hdto
    | ok dto =>
      rcases ih with ⟨hall, dtos, hdtos, hids⟩ | ⟨hnot, e, he⟩
      · refine .inl ⟨?_, dto :: dtos, by rw [hdtos]; rfl, ?_⟩
        · intro row' hmem
          rcases List.mem_cons.mp hmem with rfl | hmem
          · exact ⟨dto, hrow⟩
          · exact hall row' hmem
        · rw [List.map_cons, List.map_cons, hids, (fields_toDto hrow).1]
      · exact .inr ⟨fun h => hnot fun row' hmem => h row' (List.mem_cons_of_mem _ hmem), e,
          by rw [he]; rfl⟩

/-- The loop over a complete trace isolates the contracts from each other. -/
theorem isolated_of_completes {rows : List ContractRow} (hids : (rows.map (·.id)).Nodup)
    (h : Completes config yearMonth (rows.map (·.id)) evs) : Isolated config yearMonth rows evs := by
  -- each contract has one iteration, which says how its attempt ended
  have hrow : ∀ row ∈ rows, attemptsOf row.id yearMonth evs = 1 ∧
      ((AttemptFailed config row.id yearMonth evs ∧ jobsOf row.id yearMonth evs = 1) ∨
        (¬ AttemptFailed config row.id yearMonth evs ∧ jobsOf row.id yearMonth evs = 0)) := by
    intro row hmem
    obtain ⟨before, iteration, after, x, heq, hiterates, hone, hjobs⟩ :=
      iteration_of_mem h hids (List.mem_map_of_mem hmem)
    rw [hjobs]
    exact ⟨hone, jobsOf_iteration heq hiterates hone⟩
  constructor
  · exact fun row hmem => (hrow row hmem).1
  · intro row hmem hfailed
    rcases (hrow row hmem).2 with ⟨-, hjobs⟩ | ⟨hnot, -⟩
    · exact hjobs
    · exact absurd hfailed hnot
  · intro row hmem hnot
    rcases (hrow row hmem).2 with ⟨hfailed, -⟩ | ⟨-, hjobs⟩
    · exact absurd hfailed hnot
    · exact hjobs

/-- Whatever the calls of a monthly run answer, every locked contract has its attempt and every
    failed attempt its job, if and only if all rows can be decrypted and the queue rejects no job
    but that of the last contract. -/
theorem monthly_run_isolated {rows : List ContractRow} {x : Except String Unit}
    (hids : (rows.map (·.id)).Nodup)
    (h : Traces (runMonthlyReconcile config yearMonth) (⟨.findLockedContracts, .ok rows⟩ :: evs) x) :
    Isolated config yearMonth rows evs ↔
      Decrypts config rows ∧ QueueAccepts (rows.map (·.id)) evs := by
  -- the list of the contracts, and what follows it
  unfold runMonthlyReconcile findAllLocked at h
  rw [bind_assoc, traces_call_bind] at h
  obtain ⟨e, -, heq⟩ | ⟨rows', rest, heq, h⟩ := h
  · cases heq
  cases heq
  rw [traces_bind] at h
  simp only [traces_orThrow] at h
  rcases mapM_toDto config rows with ⟨hall, dtos, hdtos, hsame⟩ | ⟨hnot, e, he⟩
  · have hloop : Traces (forM dtos (reconcileOrEnqueue config yearMonth)) evs x := by
      rcases h with ⟨e, -, -, he⟩ | ⟨dtos', first, rest, rfl, ⟨rfl, hok⟩, hrest⟩
      · rw [hdtos] at he
        cases he
      · rw [hdtos] at hok
        cases hok
        exact hrest
    rw [← hsame] at hids
    constructor
    · intro hisolated
      refine ⟨hall, ?_⟩
      rw [← hsame]
      apply queueAccepts_of_attempted hids hloop
      intro id hid
      rw [hsame] at hid
      obtain ⟨row, hmem, rfl⟩ := List.mem_map.mp hid
      exact hisolated.attempted row hmem
    · rintro ⟨-, hqueue⟩
      rw [← hsame] at hqueue
      have hcompletes := completes_of_queueAccepts hids hloop hqueue
      rw [hsame] at hids hcompletes
      exact isolated_of_completes hids hcompletes
  · -- the list is rejected before the first attempt
    have hnone : evs = [] := by
      rcases h with ⟨e', -, hnil, -⟩ | ⟨dtos', first, rest, rfl, ⟨rfl, hok⟩, hrest⟩
      · exact hnil
      · rw [he] at hok
        cases hok
    subst hnone
    constructor
    · intro hisolated
      exfalso
      cases rows with
      | nil => exact hnot fun _ hmem => by cases hmem
      | cons row rows =>
        have hone := hisolated.attempted row List.mem_cons_self
        cases hone
    · rintro ⟨hall, -⟩
      exact absurd hall hnot

/-! ## Two contracts -/

/-- `decrypt` accepts every package but one. -/
def pickyConfig : Config where
  production := false
  explorerUrl := none
  decrypt := fun cipher => if cipher = "damaged" then .error "unsupported state" else .ok cipher
  walletFromSeed := fun _ => .ok "rContract"
  sha256Hex := fun _ => ""
  toLocaleString := fun n => n.text

def lockedRow (id tenantPiiCipher : String) : ContractRow where
  id := id
  landlordAddress := "rLandlord"
  contractAccountAddress := some "rContract"
  contractAccountSeedCipher := some "seed"
  status := .locked
  tenantPiiCipher := tenantPiiCipher
  landlordPiiCipher := "landlord"
  tenantEmail := none

/-- Both attempts fail at the look-up, and both jobs are accepted. -/
theorem monthly_run_isolated_two :
    Isolated pickyConfig "2026-04" [lockedRow "c1" "tenant", lockedRow "c2" "tenant"]
      [⟨.findMatched "c1" "2026-04", .error "db down"⟩, ⟨.addRetryJob ⟨"c1", "2026-04"⟩, .ok ()⟩,
        ⟨.findMatched "c2" "2026-04", .error "db down"⟩, ⟨.addRetryJob ⟨"c2", "2026-04"⟩, .ok ()⟩] ↔
      Decrypts pickyConfig [lockedRow "c1" "tenant", lockedRow "c2" "tenant"] ∧
        QueueAccepts ["c1", "c2"]
          [⟨.findMatched "c1" "2026-04", .error "db down"⟩, ⟨.addRetryJob ⟨"c1", "2026-04"⟩, .ok ()⟩,
            ⟨.findMatched "c2" "2026-04", .error "db down"⟩,
            ⟨.addRetryJob ⟨"c2", "2026-04"⟩, .ok ()⟩] :=
  monthly_run_isolated (x := .ok ()) (by decide)
    ⟨_, _, rfl, _, _, rfl, _, _, rfl, _, _, rfl, _, _, rfl, rfl, rfl⟩

/-- The first row cannot be decrypted: the second contract has no attempt. -/
theorem damaged_row_stops_run :
    ¬ ∀ (config : Config) (yearMonth : String) (rows : List ContractRow)
      (evs : List (Event calls String)) (x : Except String Unit), (rows.map (·.id)).Nodup →
      Traces (runMonthlyReconcile config yearMonth) (⟨.findLockedContracts, .ok rows⟩ :: evs) x →
        Isolated config yearMonth rows evs := by
  intro h
  have hisolated := h pickyConfig "2026-04" [lockedRow "c1" "damaged", lockedRow "c2" "tenant"] []
    (.error "unsupported state") (by decide) ⟨_, _, rfl, rfl, rfl⟩
  have hone := hisolated.attempted (lockedRow "c2" "tenant") (by simp)
  cases hone

end Bluesafe.Settle
