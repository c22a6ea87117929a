import Mathlib.Data.Nat.Find
import Orchestration.Observer.Basic

namespace Orchestration.Observer

/-- The answer to a poll is a failure or a final status, or the time is up after it. -/
def Ends (config : ObserverConfig) (answer : Except Failure InstanceStatus) (elapsed : Duration) :
    Prop :=
  (∃ failure, answer = .error failure) ∨
    (∃ status, answer = .ok status ∧ status.state.isTerminal = true) ∨
    ∃ limit, config.timeout = some limit ∧ limit.nanoseconds ≤ elapsed.nanoseconds

/-- What the waiting comes to with a poll that ends it. That the time is up counts only if the
answer decides nothing by itself. -/
inductive Settles (config : ObserverConfig) (instanceId : Nat) (elapsed : Duration) :
    Except Failure InstanceStatus → Except Failure InstanceStatus → Prop
  | failed (failure : Failure) : Settles config instanceId elapsed (.error failure) (.error failure)
  | ended {status : InstanceStatus} (hstate : status.state.isTerminal = true) :
      Settles config instanceId elapsed (.ok status) (.ok status)
  | expired {status : InstanceStatus} {limit : Duration} (hstate : status.state.isTerminal = false)
      (hlimit : config.timeout = some limit) (hreached : limit.nanoseconds ≤ elapsed.nanoseconds) :
      Settles config instanceId elapsed (.ok status) (.error (.timeout instanceId limit))

variable {config : ObserverConfig} {instanceId : Nat}

section Verdict

variable {answer outcome : Except Failure InstanceStatus} {elapsed : Duration}

theorem verdict_eq_some_iff :
    verdict config instanceId answer elapsed = some outcome ↔
      Settles config instanceId elapsed answer outcome := by
  constructor
  · intro h
    cases answer with
    | error failure =>
        obtain rfl := Option.some.inj h
        exact .failed failure
    | ok status =>
        simp only [verdict] at h
        split at h
        next hstate =>
          obtain rfl := Option.some.inj h
          exact .ended hstate
        next hstate =>
          split at h
          next limit hlimit =>
            obtain ⟨hreached, heq⟩ := Option.ite_none_right_eq_some.mp h
            obtain rfl := Option.some.inj heq
            exact .expired (Bool.eq_false_iff.mpr hstate) hlimit hreached
          next => cases h
  · intro h
    cases h with
    | failed failure => rfl
    | ended hstate => simp [verdict, hstate]
    | expired hstate hlimit hreached => simp [verdict, hstate, hlimit, hreached]

theorem Ends.of_settles (h : Settles config instanceId elapsed answer outcome) :
    Ends config answer elapsed := by
  cases h with
  | failed failure => exact .inl ⟨failure, rfl⟩
  | ended hstate => exact .inr (.inl ⟨_, rfl, hstate⟩)
  | expired _ hlimit hreached => exact .inr (.inr ⟨_, hlimit, hreached⟩)

theorem Ends.exists_settles (h : Ends config answer elapsed) (instanceId : Nat) :
    ∃ outcome, Settles config instanceId elapsed answer outcome := by
  cases answer with
  | error failure => exact ⟨_, .failed failure⟩
  | ok status =>
      cases hstate : status.state.isTerminal with
      | true => exact ⟨_, .ended hstate⟩
      | false =>
          rcases h with ⟨failure, hfailure⟩ | ⟨other, hother, hterminal⟩ | ⟨limit, hlimit, hreached⟩
          · cases hfailure
          · cases hother
            rw [hstate] at hterminal
            cases hterminal
          · exact ⟨_, .expired hstate hlimit hreached⟩

theorem verdict_eq_none_iff :
    verdict config instanceId answer elapsed = none ↔ ¬ Ends config answer elapsed := by
  rw [Option.eq_none_iff_forall_ne_some]
  constructor
  · intro h hends
    obtain ⟨outcome, hsettles⟩ := hends.exists_settles instanceId
    exact h outcome (verdict_eq_some_iff.mpr hsettles)
  · intro h outcome hverdict
    exact h (.of_settles (verdict_eq_some_iff.mp hverdict))

theorem Settles.isTerminal {status : InstanceStatus}
    (h : Settles config instanceId elapsed answer (.ok status)) :
    status.state.isTerminal = true := by
  cases h with
  | ended hstate => exact hstate

/-- A timeout is reported of the instance that is waited for, unless the answer to the poll was
one. -/
theorem Settles.of_timeout {id : Nat} {limit : Duration}
    (h : Settles config instanceId elapsed answer (.error (.timeout id limit))) :
    answer = .error (.timeout id limit) ∨ id = instanceId ∧ config.timeout = some limit := by
  cases h with
  | failed _ => exact .inl rfl
  | expired _ hlimit _ => exact .inr ⟨rfl, hlimit⟩

end Verdict

section Polls

variable {answer : Nat → Except Failure InstanceStatus} {elapsed : Nat → Duration}
  {outcome : Except Failure InstanceStatus}

/-- Polls that do not end the waiting leave only their number behind. -/
theorem waitFrom_of_not_ends {k number : Nat}
    (h : ∀ j < number + k, ¬ Ends config (answer j) (elapsed j)) (polls : Nat) :
    waitFrom config instanceId answer elapsed (k + polls) number =
      waitFrom config instanceId answer elapsed polls (number + k) := by
  induction k generalizing number with
  | zero => rw [Nat.zero_add, Nat.add_zero]
  | succ k ih =>
      have hnext : number + (k + 1) = number + 1 + k := by omega
      have hfirst : verdict config instanceId (answer number) (elapsed number) = none :=
        verdict_eq_none_iff.mpr (h number (by omega))
      rw [hnext] at h ⊢
      rw [Nat.succ_add, waitFrom, hfirst]
      exact ih h

theorem wait_add_of_not_ends {k : Nat} (h : ∀ j < k, ¬ Ends config (answer j) (elapsed j))
    (polls : Nat) :
    wait config instanceId answer elapsed (k + polls) =
      waitFrom config instanceId answer elapsed polls k := by
  have hfirst : ∀ j < 0 + k, ¬ Ends config (answer j) (elapsed j) := by rwa [Nat.zero_add]
  rw [wait, waitFrom_of_not_ends hfirst, Nat.zero_add]

theorem wait_of_not_ends {k : Nat} (h : ∀ j < k, ¬ Ends config (answer j) (elapsed j)) :
    wait config instanceId answer elapsed k = none :=
  wait_add_of_not_ends h 0

theorem wait_of_settles {k : Nat} (h : ∀ j < k, ¬ Ends config (answer j) (elapsed j))
    (hsettles : Settles config instanceId (elapsed k) (answer k) outcome) (polls : Nat) :
    wait config instanceId answer elapsed polls =
      if k < polls then some ⟨List.replicate (k + 1) instanceId, outcome⟩ else none := by
  split
  next hlt =>
    obtain ⟨rest, rfl⟩ := Nat.exists_eq_add_of_lt hlt
    rw [Nat.add_assoc, wait_add_of_not_ends h, waitFrom, verdict_eq_some_iff.mpr hsettles]
  next hle => exact wait_of_not_ends fun j hj => h j (Nat.lt_of_lt_of_le hj (Nat.not_lt.mp hle))

/-- The waiting that is over was ended by a poll, the first one that could end it. -/
theorem exists_settles_of_wait {polls : Nat} {w : WaitOutcome}
    (h : wait config instanceId answer elapsed polls = some w) :
    ∃ k < polls, (∀ j < k, ¬ Ends config (answer j) (elapsed j)) ∧
      w.polled = List.replicate (k + 1) instanceId ∧
      Settles config instanceId (elapsed k) (answer k) w.outcome := by
  classical
  by_cases hends : ∃ k, Ends config (answer k) (elapsed k)
  · have hfirst := Nat.find_spec hends
    have hbefore : ∀ j < Nat.find hends, ¬ Ends config (answer j) (elapsed j) :=
      fun j hj => Nat.find_min hends hj
    obtain ⟨outcome, hsettles⟩ := hfirst.exists_settles instanceId
    rw [wait_of_settles hbefore hsettles, Option.ite_none_right_eq_some] at h
    obtain ⟨hlt, heq⟩ := h
    obtain rfl := Option.some.inj heq
    exact ⟨Nat.find hends, hlt, hbefore, rfl, hsettles⟩
  · rw [wait_of_not_ends fun j _ hj => hends ⟨j, hj⟩] at h
    cases h

theorem isTerminal_of_wait {polls : Nat} {w : WaitOutcome} {status : InstanceStatus}
    (h : wait config instanceId answer elapsed polls = some w) (hstatus : w.outcome = .ok status) :
    status.state.isTerminal = true := by
  obtain ⟨k, -, -, -, hsettles⟩ := exists_settles_of_wait h
  rw [hstatus] at hsettles
  exact hsettles.isTerminal

theorem timeout_of_wait {polls id : Nat} {w : WaitOutcome} {limit : Duration}
    (h : wait config instanceId answer elapsed polls = some w)
    (htimeout : w.outcome = .error (.timeout id limit)) :
    (∃ k < polls, answer k = .error (.timeout id limit)) ∨
      id = instanceId ∧ config.timeout = some limit := by
  obtain ⟨k, hk, -, -, hsettles⟩ := exists_settles_of_wait h
  rw [htimeout] at hsettles
  exact hsettles.of_timeout.imp_left fun hanswer => ⟨k, hk, hanswer⟩

/-- The time is up after the first poll, whatever the clock shows. -/
theorem wait_of_timeout_zero (hzero : config.timeout = some .zero) (instanceId : Nat)
    (answer : Nat → Except Failure InstanceStatus) (elapsed : Nat → Duration) :
    ∃ outcome, Settles config instanceId (elapsed 0) (answer 0) outcome ∧
      ∀ polls, wait config instanceId answer elapsed (polls + 1) =
        some ⟨[instanceId], outcome⟩ := by
  have hends : Ends config (answer 0) (elapsed 0) :=
    .inr (.inr ⟨.zero, hzero, Nat.zero_le _⟩)
  obtain ⟨outcome, hsettles⟩ := hends.exists_settles instanceId
  refine ⟨outcome, hsettles, ?_⟩
  intro polls
  rw [wait_of_settles (fun j hj => absurd hj (Nat.not_lt_zero j)) hsettles,
    if_pos (Nat.succ_pos polls)]
  rfl

end Polls

section Launching

variable {submit : Submission → Except Failure Nat}
  {answerOf : Nat → Nat → Except Failure InstanceStatus} {elapsed : Nat → Duration} {polls : Nat}
  {s : Scenario} {arguments : Entries String Json}

theorem launchAndWait_of_launched {launched : Nat}
    (h : (launch submit s arguments).outcome = .ok launched) :
    launchAndWait config submit answerOf elapsed polls s arguments =
      (launch submit s arguments, wait config launched (answerOf launched) elapsed polls) := by
  simp only [launchAndWait, h]

theorem launchAndWait_of_refused {failure : Failure}
    (h : (launch submit s arguments).outcome = .error failure) :
    launchAndWait config submit answerOf elapsed polls s arguments =
      (launch submit s arguments, some ⟨[], .error failure⟩) := by
  simp only [launchAndWait, h]

theorem launched_of_mem_polled {w : WaitOutcome} {id : Nat}
    (h : (launchAndWait config submit answerOf elapsed polls s arguments).2 = some w)
    (hid : id ∈ w.polled) : (launch submit s arguments).outcome = .ok id := by
  cases hlaunch : (launch submit s arguments).outcome with
  | ok launched =>
      rw [launchAndWait_of_launched hlaunch] at h
      obtain ⟨k, -, -, hpolled, -⟩ := exists_settles_of_wait h
      rw [hpolled] at hid
      rw [List.eq_of_mem_replicate hid]
  | error failure =>
      rw [launchAndWait_of_refused hlaunch] at h
      obtain rfl := Option.some.inj h
      cases hid

end Launching

/-- The first poll that can end the waiting ends it, and no poll comes after it; a failure or a
final status counts before the time that is up. Without such a poll the waiting never ends. So what
is reported as a status is final, a timeout is reported only where one is set, and a timeout of zero
leaves one poll. A launch is followed by polls of the instance that it made, and a failed launch by
none. -/
theorem wait_decided (config : ObserverConfig) (instanceId : Nat)
    (answer : Nat → Except Failure InstanceStatus) (elapsed : Nat → Duration) :
    (∀ k, Ends config (answer k) (elapsed k) → (∀ j < k, ¬ Ends config (answer j) (elapsed j)) →
      ∃ outcome, Settles config instanceId (elapsed k) (answer k) outcome ∧
        ∀ polls, wait config instanceId answer elapsed polls =
          if k < polls then some ⟨List.replicate (k + 1) instanceId, outcome⟩ else none) ∧
    ((∀ k, ¬ Ends config (answer k) (elapsed k)) →
      ∀ polls, wait config instanceId answer elapsed polls = none) ∧
    (∀ polls w, wait config instanceId answer elapsed polls = some w →
      (∀ status, w.outcome = .ok status → status.state.isTerminal = true) ∧
      ∀ id limit, w.outcome = .error (.timeout id limit) →
        (∃ k < polls, answer k = .error (.timeout id limit)) ∨
          id = instanceId ∧ config.timeout = some limit) ∧
    (config.timeout = some .zero →
      ∃ outcome, Settles config instanceId (elapsed 0) (answer 0) outcome ∧
        ∀ polls, wait config instanceId answer elapsed (polls + 1) =
          some ⟨[instanceId], outcome⟩) ∧
    ∀ (submit : Submission → Except Failure Nat)
      (answerOf : Nat → Nat → Except Failure InstanceStatus) (polls : Nat) (s : Scenario)
      (arguments : Entries String Json),
      (∀ launched, (launch submit s arguments).outcome = .ok launched →
        launchAndWait config submit answerOf elapsed polls s arguments =
          (launch submit s arguments,
            wait config launched (answerOf launched) elapsed polls)) ∧
      (∀ failure, (launch submit s arguments).outcome = .error failure →
        launchAndWait config submit answerOf elapsed polls s arguments =
          (launch submit s arguments, some ⟨[], .error failure⟩)) ∧
      ∀ w, (launchAndWait config submit answerOf elapsed polls s arguments).2 = some w →
        ∀ id ∈ w.polled, (launch submit s arguments).outcome = .ok id := by
  refine ⟨?_, ?_, ?_, ?_, ?_⟩
  · intro k hends hbefore
    obtain ⟨outcome, hsettles⟩ := hends.exists_settles instanceId
    exact ⟨outcome, hsettles, wait_of_settles hbefore hsettles⟩
  · exact fun h polls => wait_of_not_ends fun j _ => h j
  · intro polls w hw
    exact ⟨fun status => isTerminal_of_wait hw, fun id limit => timeout_of_wait hw⟩
  · exact fun hzero => wait_of_timeout_zero hzero instanceId answer elapsed
  · intro submit answerOf polls s arguments
    exact ⟨fun launched => launchAndWait_of_launched, fun failure => launchAndWait_of_refused,
      fun w hw id => launched_of_mem_polled hw⟩

end Orchestration.Observer
