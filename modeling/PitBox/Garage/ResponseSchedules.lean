import PitBox.Foundations.Transition
import PitBox.Garage.ResponseStream

/-!
# Every schedule of a response

In whichever order the guest, the task and the caller take their steps, the task
has collected a first part of what the guest has written and the body holds the
rest. So the outcome depends on the guest alone: a schedule that cannot go on
has returned what was put out, or its guest left something that the task waits
for and the Store keeps.
-/

namespace PitBox.Garage

open PitBox.Runtime (Bytes Error ExecutionLimits GuestCall GuestStore HttpFailure Instant
  executeHttpWithInvokerTimed)
open Transition

/-! ### Counting the steps -/

def BodyStream.queued : BodyStream → ℕ
  | .streaming queue _ => queue.length
  | _ => 0

theorem BodyStream.queued_put_le (body : BodyStream) (sent : Bool) (a : GuestAction) :
    (body.put sent a).queued ≤ body.queued + 1 := by
  unfold BodyStream.put
  split
  · split_ifs <;> simp [queued]
  · simp [queued]
  · simp [queued]
  · exact Nat.le_succ _

/-- The steps of the task after the last chunk. -/
def ResponseTask.rank : ResponseTask → ℕ
  | .waiting => 2
  | .collecting _ => 1
  | .finished _ | .aborted => 0

def Caller.rank : Caller → ℕ
  | .joiningHandler => 2
  | .joiningResponse => 1
  | .returned _ => 0

namespace ResponseStream

/-- Nothing more comes into a body. -/
inductive Over : BodyStream → Prop
  | unopened : Over .unopened
  | ended (queue : List Bytes) (result : Except Error Unit) : Over (.streaming queue (some result))

/-- What the task has left of a body and what it has collected of it. -/
inductive Rest : BodyStream → BodyStream → Bytes → Prop
  | unopened : Rest .unopened .unopened []
  | streaming {chunks queue : List Bytes} {ended : Option (Except Error Unit)} {collected : Bytes}
      (h : collected ++ queue.flatten = chunks.flatten) :
      Rest (.streaming chunks ended) (.streaming queue ended) collected

/-- The task and the body, against what the guest has put out. -/
inductive Follows (o : Output) : ResponseTask → BodyStream → Prop
  | waiting (hopen : o.body ≠ .closed) : Follows o .waiting o.body
  | refused {result : Except Error HttpResponse} (hflows : o.flows = false)
      (hresult : o.response = some result) : Follows o (.finished result) o.body
  | unreadable {head : ResponseHead} {error : Error} (hsent : o.outparam = .sent (.ok head))
      (htexts : headerTexts head.headers = .error error) :
      Follows o (.finished (.error error)) .closed
  | collecting {head : ResponseHead} {headers : List (String × String)} {body : BodyStream}
      {collected : Bytes} (hsent : o.outparam = .sent (.ok head))
      (htexts : headerTexts head.headers = .ok headers) (hrest : Rest o.body body collected) :
      Follows o (.collecting ⟨head.status, headers, collected⟩) body
  | collected {result : Except Error HttpResponse} {body : BodyStream} (hflows : o.flows)
      (hresult : o.response = some result) (hput : Over o.body) (hbody : Over body) :
      Follows o (.finished result) body
  | aborted {body : BodyStream} : Follows o .aborted body

variable {o : Output} {task : ResponseTask} {body : BodyStream} {a : GuestAction} {room : BodyRoom}

theorem Over.put (h : Over body) (a : GuestAction) : body.put true a = body := by
  cases h <;> cases a <;> rfl

theorem put_of_over (hflows : o.flows) (h : Over o.body) (a : GuestAction) : o.put a = o := by
  obtain ⟨head, hsent⟩ := Output.flows_iff.mp hflows
  obtain ⟨outparam, body⟩ := o
  cases hsent
  exact congrArg (Output.mk _) (h.put a)

theorem Over.hasRoom (h : Over body) (room : BodyRoom) (a : GuestAction) :
    body.hasRoom room a := by
  cases h <;> rfl

theorem flows_put (hflows : o.flows) (a : GuestAction) : (o.put a).outparam = o.outparam := by
  obtain ⟨head, hsent⟩ := Output.flows_iff.mp hflows
  exact Output.put_outparam (by simp [hsent])

theorem Rest.put {full : BodyStream} {collected : Bytes} (h : Rest full body collected)
    (a : GuestAction) : Rest (full.put true a) (body.put true a) collected := by
  cases h with
  | unopened => cases a <;> exact .unopened
  | @streaming chunks queue ended _ h =>
    cases ended with
    | some result => cases a <;> exact .streaming h
    | none =>
      cases a with
      | write chunk =>
        refine .streaming ?_
        rw [List.flatten_append, List.flatten_append, ← h, List.append_assoc]
      | finish result | flush | body | set response | dropOutparam => exact .streaming h

theorem response_of_refused {result : Except Error HttpResponse} (hflows : o.flows = false)
    (hresult : o.response = some result) (a : GuestAction) :
    (o.put a).flows = false ∧ (o.put a).response = some result := by
  have hheld : o.outparam ≠ .held := by
    rintro hheld
    simp [Output.response, hheld] at hresult
  have houtparam := Output.put_outparam (a := a) hheld
  unfold Output.flows at hflows ⊢
  unfold Output.response at hresult ⊢
  rw [houtparam]
  refine ⟨hflows, ?_⟩
  cases ho : o.outparam with
  | held => exact absurd ho hheld
  | dropped => simpa [ho] using hresult
  | sent response =>
    cases response with
    | error error => simpa [ho] using hresult
    | ok head => simp [ho] at hflows

theorem Follows.response_finished {result : Except Error HttpResponse}
    (h : Follows o (.finished result) body) : o.response = some result := by
  cases h with
  | refused _ hresult => exact hresult
  | unreadable hsent htexts => simp [Output.response, hsent, htexts]
  | collected _ hresult => exact hresult

theorem put_ne_closed (h : body ≠ .closed) (sent : Bool) (a : GuestAction) :
    body.put sent a ≠ .closed := by
  unfold BodyStream.put
  split
  · split_ifs <;> exact BodyStream.noConfusion
  · exact BodyStream.noConfusion
  · exact BodyStream.noConfusion
  · exact h

/-- A step of the guest. -/
theorem Follows.put (h : Follows o task body) (a : GuestAction) :
    Follows (o.put a) task (body.put o.flows a) := by
  cases h with
  | waiting hopen => exact .waiting (put_ne_closed hopen _ a)
  | refused hflows hresult =>
    obtain ⟨hflows', hresult'⟩ := response_of_refused hflows hresult a
    exact .refused hflows' hresult'
  | unreadable hsent htexts =>
    have hput := flows_put (Output.flows_iff.mpr ⟨_, hsent⟩) a
    exact .unreadable (hput.trans hsent) htexts
  | collecting hsent htexts hrest =>
    have hflows := Output.flows_iff.mpr ⟨_, hsent⟩
    refine .collecting ((flows_put hflows a).trans hsent) htexts ?_
    rw [Output.put, hflows]
    exact hrest.put a
  | collected hflows hresult hput hbody =>
    rw [put_of_over hflows hput, hflows, hbody.put]
    exact .collected hflows hresult hput hbody
  | aborted => exact .aborted

variable {s t : ResponseStream}

theorem rest_unopened {full : BodyStream} {collected : Bytes} (h : Rest full .unopened collected) :
    full = .unopened ∧ collected = [] := by
  cases h
  exact ⟨rfl, rfl⟩

theorem not_rest_closed {full : BodyStream} {collected : Bytes} :
    ¬ Rest full .closed collected := by
  intro h
  cases h

theorem rest_streaming {full : BodyStream} {queue : List Bytes}
    {ended : Option (Except Error Unit)} {collected : Bytes}
    (h : Rest full (.streaming queue ended) collected) :
    ∃ chunks, full = .streaming chunks ended ∧ collected ++ queue.flatten = chunks.flatten := by
  cases h with
  | streaming h => exact ⟨_, rfl, h⟩

theorem rest_self (h : body ≠ .closed) : Rest body body [] := by
  cases body with
  | unopened => exact .unopened
  | streaming queue ended => exact .streaming rfl
  | closed => exact absurd rfl h

/-- A step of the task. -/
theorem Follows.responseStep (h : Follows o s.task s.output.body)
    (ho : s.output.outparam = o.outparam) (hstep : s.responseStep = some t) :
    Follows o t.task t.output.body ∧ t.output.outparam = o.outparam ∧ t.guest = s.guest ∧
      t.caller = s.caller ∧ t.task ≠ .aborted := by
  obtain ⟨guest, ⟨outparam, body⟩, task, caller⟩ := s
  cases ho
  cases h with
  | waiting hopen =>
    cases hsent : o.outparam with
    | held => simp [ResponseStream.responseStep, hsent] at hstep
    | dropped =>
      simp only [ResponseStream.responseStep, hsent, Option.some.injEq] at hstep
      subst hstep
      refine ⟨.refused ?_ ?_, rfl, rfl, rfl, ResponseTask.noConfusion⟩
      · simp [Output.flows, hsent]
      · simp [Output.response, hsent]
    | sent response =>
      cases response with
      | error error =>
        simp only [ResponseStream.responseStep, hsent, Option.some.injEq] at hstep
        subst hstep
        refine ⟨.refused ?_ ?_, rfl, rfl, rfl, ResponseTask.noConfusion⟩
        · simp [Output.flows, hsent]
        · simp [Output.response, hsent]
      | ok head =>
        cases htexts : headerTexts head.headers with
        | error error =>
          simp only [ResponseStream.responseStep, hsent, htexts, Option.some.injEq] at hstep
          subst hstep
          exact ⟨.unreadable hsent htexts, rfl, rfl, rfl, ResponseTask.noConfusion⟩
        | ok headers =>
          simp only [ResponseStream.responseStep, hsent, htexts, Option.some.injEq] at hstep
          subst hstep
          exact ⟨.collecting hsent htexts (rest_self hopen), rfl, rfl, rfl,
            ResponseTask.noConfusion⟩
  | refused | unreadable | collected | aborted => cases hstep
  | collecting hsent htexts hrest =>
    have hflows := Output.flows_iff.mpr ⟨_, hsent⟩
    rcases body with _ | ⟨_ | ⟨chunk, queue⟩, ended⟩ | _
    · obtain ⟨hbody, rfl⟩ := rest_unopened hrest
      cases hstep
      exact ⟨.collected hflows (by simp [Output.response, hsent, htexts, hbody]) (hbody ▸ .unopened)
        .unopened, rfl, rfl, rfl, ResponseTask.noConfusion⟩
    · obtain ⟨chunks, hbody, hchunks⟩ := rest_streaming hrest
      rw [List.flatten_nil, List.append_nil] at hchunks
      rcases ended with _ | error | ⟨⟩
      · cases hstep
      · cases hstep
        exact ⟨.collected hflows (by simp [Output.response, hsent, htexts, hbody])
          (hbody ▸ .ended _ _) (.ended _ _), rfl, rfl, rfl, ResponseTask.noConfusion⟩
      · cases hstep
        exact ⟨.collected hflows (by simp [Output.response, hsent, htexts, hbody, hchunks])
          (hbody ▸ .ended _ _) (.ended _ _), rfl, rfl, rfl, ResponseTask.noConfusion⟩
    · obtain ⟨chunks, hbody, hchunks⟩ := rest_streaming hrest
      cases hstep
      refine ⟨.collecting hsent htexts ?_, rfl, rfl, rfl, ResponseTask.noConfusion⟩
      rw [hbody]
      refine .streaming ?_
      rw [List.append_assoc, ← List.flatten_cons, hchunks]
    · cases hstep

theorem held_of_waiting {guest : List GuestAction} {output : Output} {caller : Caller}
    (h : (⟨guest, output, .waiting, caller⟩ : ResponseStream).responseStep = none) :
    output.outparam = .held := by
  cases hsent : output.outparam with
  | held => rfl
  | dropped => simp [responseStep, hsent] at h
  | sent response =>
    cases response with
    | error error => simp [responseStep, hsent] at h
    | ok head => cases htexts : headerTexts head.headers <;> simp [responseStep, hsent, htexts] at h

/-- A call that has to wait for a task that waits itself has no response to go
to yet. -/
theorem Follows.blocked (h : Follows o s.task s.output.body) (ho : s.output.outparam = o.outparam)
    (hstuck : s.responseStep = none) (hidle : room [] a = true)
    (hfull : s.output.body.hasRoom room a = false) (hlive : s.task ≠ .aborted) :
    o.flows = false ∧ o.body.hasRoom room a = false := by
  obtain ⟨guest, ⟨outparam, body⟩, task, caller⟩ := s
  cases ho
  cases h with
  | waiting =>
    have hheld : o.outparam = .held := held_of_waiting hstuck
    exact ⟨by simp [Output.flows, hheld], hfull⟩
  | refused hflows => exact ⟨hflows, hfull⟩
  | unreadable => cases hfull
  | collecting =>
    rcases body with _ | ⟨_ | ⟨chunk, queue⟩, ended⟩ | _
    · cases hstuck
    · cases ended <;> simp [BodyStream.hasRoom, hidle] at hfull
    · cases hstuck
    · cases hfull
  | collected _ _ _ hbody =>
    rw [hbody.hasRoom] at hfull
    cases hfull
  | aborted => exact absurd rfl hlive

/-- A task that waits for good has no result to come to. -/
theorem Follows.unanswered (h : Follows o s.task s.output.body)
    (ho : s.output.outparam = o.outparam) (hstuck : s.responseStep = none)
    (hnone : ∀ result, s.task ≠ .finished result) (hlive : s.task ≠ .aborted) :
    o.response = none := by
  obtain ⟨guest, ⟨outparam, body⟩, task, caller⟩ := s
  cases ho
  cases h with
  | waiting =>
    have hheld : o.outparam = .held := held_of_waiting hstuck
    simp [Output.response, hheld]
  | collecting hsent htexts hrest =>
    rcases body with _ | ⟨_ | ⟨chunk, queue⟩, ended⟩ | _
    · cases hstuck
    · obtain ⟨chunks, hbody, -⟩ := rest_streaming hrest
      rcases ended with _ | error | ⟨⟩
      · simp [Output.response, hsent, htexts, hbody]
      · cases hstuck
      · cases hstuck
    · cases hstuck
    · exact absurd hrest not_rest_closed
  | refused | unreadable | collected => exact absurd rfl (hnone _)
  | aborted => exact absurd rfl hlive

/-! ### Every schedule -/

variable {store : GuestStore} {handled : Except Error Unit} {script : List GuestAction}
  {tasks : List Task}

/-- What the caller knows when it has joined the guest, and when it returns. -/
def Joined (store : GuestStore) (handled : Except Error Unit) (o : Output) (s : ResponseStream) :
    Prop :=
  match s.caller with
  | .joiningHandler => s.task ≠ .aborted
  | .joiningResponse => s.task ≠ .aborted ∧ s.guest = [] ∧ handled = .ok ()
  | .returned result => s.guest = [] ∧
      match handled with
      | .error error => result = .error (.handler error)
      | .ok () => ∃ response, o.response = some response ∧ result = settle store response

/-- A schedule of a script, by what the guest has put out so far. -/
structure Schedules (room : BodyRoom) (store : GuestStore) (handled : Except Error Unit)
    (script : List GuestAction) (o : Output) (s : ResponseStream) : Prop where
  fits : Output.initial.Fits room script ↔ o.Fits room s.guest
  puts : Output.initial.puts script = o.puts s.guest
  outparam : s.output.outparam = o.outparam
  follows : Follows o s.task s.output.body
  joined : Joined store handled o s

theorem schedules_initial :
    Schedules room store handled script .initial (initial script) where
  fits := Iff.rfl
  puts := rfl
  outparam := rfl
  follows := .waiting BodyStream.noConfusion
  joined := ResponseTask.noConfusion

theorem Follows.goes (h : Follows o task body) (hlive : task ≠ .aborted)
    (hroom : body.hasRoom room a) : o.flows ∨ o.body.hasRoom room a := by
  cases h with
  | waiting | refused => exact .inr hroom
  | unreadable hsent => exact .inl (Output.flows_iff.mpr ⟨_, hsent⟩)
  | collecting hsent => exact .inl (Output.flows_iff.mpr ⟨_, hsent⟩)
  | collected hflows => exact .inl hflows
  | aborted => exact absurd rfl hlive

theorem Schedules.guest (h : Schedules room store handled script o s)
    (hstep : s.guestStep room = some t) :
    ∃ a, Schedules room store handled script (o.put a) t := by
  obtain ⟨guest, output, task, caller⟩ := s
  obtain ⟨hfits, hputs, houtparam, hfollows, hjoined⟩ := h
  cases guest with
  | nil => cases hstep
  | cons a rest =>
    simp only [guestStep, Option.ite_none_right_eq_some, Option.some.injEq] at hstep
    obtain ⟨hroom, rfl⟩ := hstep
    have hcaller : caller = .joiningHandler ∧ task ≠ .aborted := by
      cases caller with
      | joiningHandler => exact ⟨rfl, hjoined⟩
      | joiningResponse => cases hjoined.2.1
      | returned result => cases hjoined.1
    obtain ⟨rfl, hlive⟩ := hcaller
    have hflows : output.flows = o.flows := by rw [Output.flows, Output.flows, houtparam]
    refine ⟨a, hfits.trans ?_, hputs, congrArg (Outparam.put · a) houtparam, ?_, hlive⟩
    · exact and_iff_right (hfollows.goes hlive hroom)
    · simp only [Output.put, hflows]
      exact hfollows.put a

theorem Schedules.response (h : Schedules room store handled script o s)
    (hstep : s.responseStep = some t) : Schedules room store handled script o t := by
  obtain ⟨guest, output, task, caller⟩ := s
  obtain ⟨hfits, hputs, houtparam, hfollows, hjoined⟩ := h
  obtain ⟨guest', output', task', caller'⟩ := t
  obtain ⟨hfollows', houtparam', rfl, rfl, hlive⟩ := hfollows.responseStep houtparam hstep
  refine ⟨hfits, hputs, houtparam', hfollows', ?_⟩
  cases caller' with
  | joiningHandler => exact hlive
  | joiningResponse => exact ⟨hlive, hjoined.2⟩
  | returned result => exact hjoined

theorem Schedules.caller (h : Schedules room store handled script o s)
    (hstep : s.callerStep store handled = some t) :
    Schedules room store handled script o t := by
  obtain ⟨guest, output, task, caller⟩ := s
  obtain ⟨hfits, hputs, houtparam, hfollows, hjoined⟩ := h
  cases caller with
  | joiningHandler =>
    cases guest with
    | cons a rest => cases hstep
    | nil =>
      cases handled with
      | error error =>
        cases hstep
        exact ⟨hfits, hputs, houtparam, .aborted, rfl, rfl⟩
      | ok _ =>
        cases hstep
        exact ⟨hfits, hputs, houtparam, hfollows, hjoined, rfl, rfl⟩
  | joiningResponse =>
    obtain ⟨-, hguest, hhandled⟩ := hjoined
    cases task with
    | waiting | collecting | aborted => cases hstep
    | finished result =>
      cases hstep
      refine ⟨hfits, hputs, houtparam, hfollows, hguest, ?_⟩
      rw [hhandled]
      exact ⟨result, hfollows.response_finished, rfl⟩
  | returned result => cases hstep

theorem Schedules.step (h : Schedules room store handled script o s) {task : Task}
    (hstep : s.step room store handled task = some t) :
    ∃ o', Schedules room store handled script o' t := by
  cases task with
  | guest =>
    obtain ⟨a, ha⟩ := h.guest hstep
    exact ⟨_, ha⟩
  | response => exact ⟨o, h.response hstep⟩
  | caller => exact ⟨o, h.caller hstep⟩

theorem exec_schedules
    (h : exec (step room store handled) (initial script) tasks = some s) :
    ∃ o, Schedules room store handled script o s :=
  exec_invariant_of_step (I := fun s => ∃ o, Schedules room store handled script o s)
    (fun _ _ _ ⟨_, hs⟩ hstep => hs.step hstep) ⟨_, schedules_initial⟩ h

/-- A schedule that has returned has taken every step of the guest, and returns
what was put out. -/
theorem Schedules.returned (h : Schedules room store handled script o s)
    {result : Except HttpFailure HttpResponse} (hreturned : s.caller = .returned result) :
    Output.Answers room handled script ∧
      match handled with
      | .error error => result = .error (.handler error)
      | .ok () => ∃ response, (Output.initial.puts script).response = some response ∧
          result = settle store response := by
  obtain ⟨guest, output, task, caller⟩ := s
  obtain ⟨hfits, hputs, houtparam, hfollows, hjoined⟩ := h
  cases hreturned
  obtain ⟨hguest, hresult⟩ := hjoined
  cases hguest
  have hputs : Output.initial.puts script = o := hputs
  rw [Output.Answers, hfits, hputs]
  cases handled with
  | error error => exact ⟨⟨trivial, fun h => by cases h⟩, hresult⟩
  | ok _ =>
    obtain ⟨response, hresponse, hsettled⟩ := hresult
    exact ⟨⟨trivial, fun _ => by rw [hresponse]; rfl⟩, response, hresponse, hsettled⟩

/-- A schedule that cannot go on has returned, or its script does not answer. -/
theorem Schedules.stuck (h : Schedules room store handled script o s)
    (hidle : ∀ a, room [] a = true) (hstuck : ∀ task, s.step room store handled task = none) :
    (∃ result, s.caller = .returned result) ∨ ¬ Output.Answers room handled script := by
  obtain ⟨guest, output, task, caller⟩ := s
  obtain ⟨hfits, hputs, houtparam, hfollows, hjoined⟩ := h
  have hresponse := hstuck .response
  have hcaller := hstuck .caller
  cases guest with
  | cons a rest =>
    right
    have hlive : task ≠ .aborted := by
      cases caller with
      | joiningHandler => exact hjoined
      | joiningResponse => exact hjoined.1
      | returned result => cases hjoined.1
    have hfull : output.body.hasRoom room a = false := by
      simpa [ResponseStream.step, guestStep] using hstuck .guest
    obtain ⟨hflows, hbody⟩ :=
      hfollows.blocked houtparam hresponse (hidle a) hfull hlive
    rintro ⟨hanswers, -⟩
    rcases (hfits.mp hanswers).1 with hsent | hroom
    · rw [hflows] at hsent
      cases hsent
    · rw [hbody] at hroom
      cases hroom
  | nil =>
    cases caller with
    | returned result => exact .inl ⟨result, rfl⟩
    | joiningHandler => cases handled <;> cases hcaller
    | joiningResponse =>
      right
      obtain ⟨hlive, -, rfl⟩ := hjoined
      have hnone (result) : task ≠ .finished result := by
        rintro rfl
        cases hcaller
      have hunanswered := hfollows.unanswered houtparam hresponse hnone hlive
      rintro ⟨-, hanswers⟩
      have hputs : Output.initial.puts script = o := hputs
      have hsome := hanswers rfl
      rw [hputs, hunanswered] at hsome
      cases hsome

def rank (s : ResponseStream) : ℕ :=
  2 * s.guest.length + s.output.body.queued + s.task.rank + s.caller.rank

theorem rank_step {task : Task} (h : s.step room store handled task = some t) :
    t.rank + 1 ≤ s.rank := by
  obtain ⟨guest, ⟨outparam, body⟩, task', caller⟩ := s
  cases task with
  | guest =>
    cases guest with
    | nil => cases h
    | cons a rest =>
      simp only [ResponseStream.step, guestStep, Option.ite_none_right_eq_some,
        Option.some.injEq] at h
      obtain ⟨-, rfl⟩ := h
      have hqueued := body.queued_put_le (Output.flows ⟨outparam, body⟩) a
      simp only [rank, Output.put, List.length_cons]
      omega
  | response =>
    revert h
    simp only [ResponseStream.step]
    fun_cases responseStep <;> intro h <;> cases h <;>
      simp_all +arith [rank, ResponseTask.rank, BodyStream.queued]
  | caller =>
    revert h
    simp only [ResponseStream.step]
    fun_cases callerStep <;> intro h <;> cases h <;>
      simp_all +arith [rank, ResponseTask.rank, Caller.rank]

/-- Every schedule ends after boundedly many steps, and unless it can go on it
has returned exactly if the script answers, for every stream on which no call
waits while there is nothing in it. -/
theorem exec_returns (hidle : ∀ a, room [] a = true)
    (h : exec (step room store handled) (initial script) tasks = some s) :
    tasks.length ≤ 2 * script.length + 4 ∧
      ((∀ task, s.step room store handled task = none) →
        ((∃ result, s.caller = .returned result) ↔ Output.Answers room handled script)) := by
  obtain ⟨o, hs⟩ := exec_schedules h
  constructor
  · have hpaid := exec_potential (f := rank) (w := fun _ => 1) (fun _ => True)
      (fun _ _ _ _ _ => trivial) (fun _ _ _ _ hstep => rank_step hstep) trivial h
    simp only [List.map_const', List.sum_replicate, smul_eq_mul, mul_one] at hpaid
    have hinitial : (initial script).rank = 2 * script.length + 4 := rfl
    omega
  · intro hstuck
    constructor
    · rintro ⟨result, hreturned⟩
      exact (hs.returned hreturned).1
    · intro hanswers
      rcases hs.stuck hidle hstuck with hreturned | hnot
      · exact hreturned
      · exact absurd hanswers hnot

/-- Whatever the schedule, the caller returns what the execution returns that
waits for the whole response. -/
theorem exec_refines {limits : ExecutionLimits} {now : Instant}
    {instantiation handler : GuestCall Error Unit} {entered : GuestStore}
    (hinstantiation : (GuestStore.new limits now).enter instantiation = (entered, .ok ()))
    (hhandler : entered.enter handler = (store, handled))
    (h : exec (step room store handled) (initial script) tasks = some s)
    {result : Except HttpFailure HttpResponse} (hreturned : s.caller = .returned result) :
    result = executeHttpWithInvokerTimed limits now
      { setup := .ok ()
        instantiation
        handler
        response := (Output.initial.puts script).response.getD (.error []) } := by
  obtain ⟨o, hs⟩ := exec_schedules h
  obtain ⟨-, hresult⟩ := hs.returned hreturned
  simp only [executeHttpWithInvokerTimed, hinstantiation, hhandler]
  cases handled with
  | error error => exact hresult
  | ok _ =>
    obtain ⟨response, hresponse, rfl⟩ := hresult
    rw [hresponse]
    cases response <;> rfl

end ResponseStream

/-! ### A page in two chunks -/

section Demo

open ResponseStream

def pageHead : ResponseHead := ⟨200, [("content-type", some "text/html")]⟩

def pageLast : List GuestAction :=
  [.body, .write [0x3c, 0x70, 0x3e], .write [0x68, 0x69], .flush, .finish (.ok ()),
    .set (.ok pageHead)]

def pageFirst : List GuestAction :=
  [.body, .set (.ok pageHead), .write [0x3c, 0x70, 0x3e], .write [0x68, 0x69], .finish (.ok ())]

def page200 : HttpResponse := ⟨200, [("content-type", "text/html")], [0x3c, 0x70, 0x3e, 0x68, 0x69]⟩

def idleStore : GuestStore := .new ⟨none, none⟩ 0

/-- A stream with room for `chunks`, for a page that is far from that. -/
def roomFor (chunks : ℕ) : BodyRoom := fun queue _ => decide (queue.length < chunks)

def guestFirst : List Task :=
  [.guest, .guest, .guest, .guest, .guest, .guest, .caller, .response, .response, .response,
    .response, .caller]

def sideBySide : List Task :=
  [.guest, .guest, .response, .guest, .response, .guest, .guest, .response, .caller, .response,
    .caller]

theorem exec_returns_guestFirst :
    ∃ s, exec (step (roomFor outgoingBodyBufferChunks) idleStore (.ok ())) (initial pageLast)
        guestFirst = some s ∧ ∃ result, s.caller = .returned result := by
  have hrun : exec (step (roomFor outgoingBodyBufferChunks) idleStore (.ok ())) (initial pageLast)
      guestFirst =
        some ⟨[], ⟨.sent (.ok pageHead), .streaming [] (some (.ok ()))⟩, .finished (.ok page200),
          .returned (.ok page200)⟩ := by decide +kernel
  refine ⟨_, hrun, ((exec_returns (fun _ => rfl) hrun).2 ?_).mpr (by decide +kernel)⟩
  intro task
  cases task <;> rfl

def quietCall : GuestCall Error Unit := ⟨[], [], .ok ()⟩

theorem exec_refines_sideBySide :
    ∃ s, exec (step (roomFor outgoingBodyBufferChunks) idleStore (.ok ())) (initial pageFirst)
        sideBySide = some s ∧
      s.caller = .returned (.ok page200) ∧
      .ok page200 = executeHttpWithInvokerTimed ⟨none, none⟩ 0
        { setup := .ok ()
          instantiation := quietCall
          handler := quietCall
          response := (Output.initial.puts pageFirst).response.getD (.error []) } := by
  have hrun : exec (step (roomFor outgoingBodyBufferChunks) idleStore (.ok ())) (initial pageFirst)
      sideBySide =
        some ⟨[], ⟨.sent (.ok pageHead), .streaming [] (some (.ok ()))⟩, .finished (.ok page200),
          .returned (.ok page200)⟩ := by decide +kernel
  have hinstantiation : (GuestStore.new ⟨none, none⟩ 0).enter quietCall = (idleStore, .ok ()) := rfl
  have hhandler : idleStore.enter quietCall = (idleStore, .ok ()) := rfl
  exact ⟨_, hrun, rfl, exec_refines hinstantiation hhandler hrun rfl⟩

end Demo

end PitBox.Garage
