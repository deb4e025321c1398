import ParkingService.Concurrency.Dialogue
import ParkingService.Slot.Reader

/-!
# A change that a failing read has used up

`parking_read` clears `status_changed` as soon as it gets past its wait. Only then does it learn
whether the record fits the caller's buffer, and whether it can be copied there. A read that fails
for either reason has told nobody of the change that it has cleared.

What a call does is read off what it is answered: `Course` lists the five courses that a call of
`parking_read` can take. The worker may set the flag at any moment, but only a reader ever clears it
(`changed_stays`), so a flag that a call has left up is up for the next one.
-/

namespace ParkingService.Slots

open Concurrency Concurrency.Prog

/-! ## What a call is answered -/

/-- An operation of a call, and its answer. -/
abbrev ReadAnswer := (o : ReadOp) × o.Resp

def ReadResult.IsError : ReadResult → Prop
  | .len _ => False
  | _ => True

section Answers

variable (xs : List ReadAnswer) (call : ReadCall)

/-- The call returns an error. -/
def ReturnsError : Prop := ∃ result : ReadResult, result.IsError ∧ ⟨.leave result, ()⟩ ∈ xs

def Clears : Prop := ⟨.clearChanged, ()⟩ ∈ xs

/-- The call gets past its wait. -/
def GetsFlag : Prop := ⟨.readChanged, true⟩ ∈ xs ∨ ⟨.waitChanged, false⟩ ∈ xs

/-- A signal ends the wait. -/
def Interrupted : Prop := ⟨.waitChanged, true⟩ ∈ xs

/-- The copy to the caller fails. -/
def CopyFails : Prop := ∃ record, ⟨.copyToUser record, true⟩ ∈ xs

/-- What a value that is read makes of a status. -/
def noteField (st : ParkingStatus) : ReadAnswer → ParkingStatus
  | ⟨.readField f, x⟩ => st.set x f
  | _ => st

/-- The status that a call has read. -/
def fieldsRead : ParkingStatus := xs.foldl noteField .init

/-- The record of what has been read does not fit the buffer. -/
def TooSmall : Prop := call.count < (fieldsRead xs).record.length

def Delivers : Prop := ⟨.leave (.len (fieldsRead xs)), ()⟩ ∈ xs

end Answers

/-- A value that is read. -/
def IsField : ReadAnswer → Prop
  | ⟨.readField _, _⟩ => True
  | _ => False

/-- How a call ends that has read this status. -/
inductive Ending (call : ReadCall) (st : ParkingStatus) : List ReadAnswer → Prop
  | tooSmall (h : call.count < st.record.length) : Ending call st [⟨.leave .einval, ()⟩]
  | faulted (h : ¬call.count < st.record.length) :
      Ending call st [⟨.copyToUser st.record, true⟩, ⟨.leave .efault, ()⟩]
  | delivered (h : ¬call.count < st.record.length) :
      Ending call st [⟨.copyToUser st.record, false⟩, ⟨.leave (.len st), ()⟩]

/-- The courses that a call can take. -/
inductive Course (call : ReadCall) : List ReadAnswer → Prop
  | again : Course call [⟨.readChanged, false⟩, ⟨.leave .eagain, ()⟩]
  | interrupted : Course call [⟨.waitChanged, true⟩, ⟨.leave .erestartsys, ()⟩]
  | cleared {look ys zs} (hlook : GetsFlag [look]) (hys : ∀ y ∈ ys, IsField y)
      (hzs : Ending call (fieldsRead ys) zs) :
      Course call (look :: ⟨.clearChanged, ()⟩ :: (ys ++ zs))

variable {xs ys zs : List ReadAnswer} {call : ReadCall} {result : ReadResult}

theorem readFields_makes {fs : List StatusField} {st st' : ParkingStatus}
    (h : (readFields fs st).Makes ys st') :
    (∀ y ∈ ys, IsField y) ∧ st' = ys.foldl noteField st := by
  induction fs generalizing st ys with
  | nil =>
    obtain ⟨rfl, rfl⟩ := makes_ret.mp h
    exact ⟨fun _ hy ↦ absurd hy List.not_mem_nil, rfl⟩
  | cons f fs ih =>
    obtain ⟨x, rest, rfl, hrest⟩ := makes_call_bind.mp h
    obtain ⟨hfields, rfl⟩ := ih hrest
    exact ⟨List.forall_mem_cons.mpr ⟨trivial, hfields⟩, rfl⟩

theorem deliver_makes (h : (deliver call).Makes xs result) :
    ∃ ys zs, xs = ⟨.clearChanged, ()⟩ :: (ys ++ zs) ∧ (∀ y ∈ ys, IsField y)
      ∧ Ending call (fieldsRead ys) (zs ++ [⟨.leave result, ()⟩]) := by
  obtain ⟨_, rest, rfl, hrest⟩ := makes_call_bind.mp h
  obtain ⟨ys, st, zs, rfl, hys, hzs⟩ := makes_bind.mp hrest
  obtain ⟨hfields, rfl⟩ := readFields_makes hys
  refine ⟨ys, zs, rfl, hfields, ?_⟩
  split at hzs
  · obtain ⟨rfl, rfl⟩ := makes_ret.mp hzs
    exact .tooSmall ‹_›
  · obtain ⟨fault, last, rfl, hlast⟩ := makes_call_bind.mp hzs
    cases fault with
    | true =>
      obtain ⟨rfl, rfl⟩ := makes_ret.mp hlast
      exact .faulted ‹_›
    | false =>
      obtain ⟨rfl, rfl⟩ := makes_ret.mp hlast
      exact .delivered ‹_›

/-- A call, and how it returns. -/
def readJob (call : ReadCall) : ReadProg Unit := do
  readPerform (.leave (← parkingRead call))

/-- Every call takes one of the courses. -/
theorem readJob_course (h : (readJob call).Makes xs ()) : Course call xs := by
  obtain ⟨ys, result, zs, rfl, hys, hzs⟩ := makes_bind.mp h
  obtain rfl := makes_call.mp hzs
  have hcleared {look : ReadAnswer} {rest : List ReadAnswer} (hlook : GetsFlag [look])
      (hrest : (deliver call).Makes rest result) :
      Course call (look :: rest ++ [⟨.leave result, ()⟩]) := by
    obtain ⟨ys, zs, rfl, hfields, hend⟩ := deliver_makes hrest
    rw [List.cons_append, List.cons_append, List.append_assoc]
    exact .cleared hlook hfields hend
  unfold parkingRead at hys
  split at hys
  · obtain ⟨changed, rest, rfl, hrest⟩ := makes_call_bind.mp hys
    cases changed with
    | true => exact hcleared (.inl (List.mem_singleton_self _)) hrest
    | false =>
      obtain ⟨rfl, rfl⟩ := makes_ret.mp hrest
      exact .again
  · obtain ⟨signal, rest, rfl, hrest⟩ := makes_call_bind.mp hys
    cases signal with
    | true =>
      obtain ⟨rfl, rfl⟩ := makes_ret.mp hrest
      exact .interrupted
    | false => exact hcleared (.inr (List.mem_singleton_self _)) hrest

namespace Course

/-- Only the end of a call tells how it has gone. -/
theorem mem_cleared_iff {look y : ReadAnswer} (hlook : GetsFlag [look]) (hys : ∀ y ∈ ys, IsField y)
    (hy : ¬GetsFlag [y]) (hclear : y ≠ ⟨.clearChanged, ()⟩) (hfield : ¬IsField y) :
    y ∈ look :: ⟨.clearChanged, ()⟩ :: (ys ++ zs) ↔ y ∈ zs := by
  have hne : y ≠ look := by
    rintro rfl
    exact hy hlook
  rw [List.mem_cons, List.mem_cons, List.mem_append, or_iff_right hne, or_iff_right hclear,
    or_iff_right fun hmem ↦ hfield (hys y hmem)]

theorem leave_mem_cleared {look : ReadAnswer} (hlook : GetsFlag [look])
    (hys : ∀ y ∈ ys, IsField y) :
    ⟨.leave result, ()⟩ ∈ look :: ⟨.clearChanged, ()⟩ :: (ys ++ zs) ↔ ⟨.leave result, ()⟩ ∈ zs :=
  mem_cleared_iff hlook hys (by simp [GetsFlag]) (by simp) id

/-- What comes before and after the values that are read does not count among them. -/
theorem fieldsRead_cleared {look : ReadAnswer} (hlook : GetsFlag [look])
    (hzs : Ending call (fieldsRead ys) zs) :
    fieldsRead (look :: ⟨.clearChanged, ()⟩ :: (ys ++ zs)) = fieldsRead ys := by
  have hfirst (st : ParkingStatus) : noteField st look = st := by
    rcases hlook with h | h <;> rw [← List.mem_singleton.mp h] <;> rfl
  rw [fieldsRead, List.foldl_cons, hfirst, List.foldl_cons, List.foldl_append]
  cases hzs <;> rfl

theorem getsFlag_cons {look : ReadAnswer} (hlook : GetsFlag [look]) : GetsFlag (look :: ys) := by
  rcases hlook with h | h
  · exact .inl (List.mem_singleton.mp h ▸ List.mem_cons_self)
  · exact .inr (List.mem_singleton.mp h ▸ List.mem_cons_self)

theorem clears_iff (h : Course call xs) : Clears xs ↔ GetsFlag xs := by
  cases h with
  | again | interrupted => simp [Clears, GetsFlag]
  | @cleared look ys zs hlook hys hzs =>
    exact iff_of_true (List.mem_cons_of_mem _ List.mem_cons_self) (getsFlag_cons hlook)

/-- A call that has cleared the flag fails if its record does not fit or cannot be copied. -/
theorem returnsError_iff (h : Course call xs) (hclears : Clears xs) :
    ReturnsError xs ↔ TooSmall xs call ∨ CopyFails xs := by
  cases h with
  | again | interrupted => simp [Clears] at hclears
  | @cleared look ys zs hlook hys hzs =>
    have hcopy (record : String) : (⟨.copyToUser record, true⟩ : ReadAnswer) ∈
        look :: ⟨.clearChanged, ()⟩ :: (ys ++ zs) ↔ ⟨.copyToUser record, true⟩ ∈ zs :=
      mem_cleared_iff hlook hys (by simp [GetsFlag]) (by simp) id
    rw [TooSmall, fieldsRead_cleared hlook hzs]
    simp only [ReturnsError, CopyFails, leave_mem_cleared hlook hys, hcopy]
    cases hzs with
    | tooSmall h => simp [h, ReadResult.IsError]
    | faulted h => simp [ReadResult.IsError]
    | delivered h => simp [h, ReadResult.IsError]

/-- When a call clears the flag and fails. -/
theorem spoils_iff (h : Course call xs) :
    ReturnsError xs ∧ Clears xs ↔ GetsFlag xs ∧ (TooSmall xs call ∨ CopyFails xs) := by
  rw [and_comm, and_congr_right h.returnsError_iff, h.clears_iff]

/-- A call that is neither told that nothing has changed nor interrupted delivers. -/
theorem delivers (h : Course call xs) (hagain : ¬Clears xs → ⟨.readChanged, false⟩ ∉ xs)
    (hsignal : ¬Interrupted xs) (hfits : ¬TooSmall xs call) (hcopy : ¬CopyFails xs) :
    Delivers xs := by
  cases h with
  | again => simp [Clears] at hagain
  | interrupted => simp [Interrupted] at hsignal
  | @cleared look ys zs hlook hys hzs =>
    rw [TooSmall, fieldsRead_cleared hlook hzs] at hfits
    rw [Delivers, fieldsRead_cleared hlook hzs]
    cases hzs with
    | tooSmall h => exact absurd h hfits
    | faulted h => exact absurd ⟨(fieldsRead ys).record, by simp⟩ hcopy
    | delivered h => simp

theorem tooSmall_of_einval (h : Course call xs) (hmem : ⟨.leave .einval, ()⟩ ∈ xs) :
    TooSmall xs call := by
  cases h with
  | again | interrupted => simp at hmem
  | @cleared look ys zs hlook hys hzs =>
    rw [leave_mem_cleared hlook hys] at hmem
    rw [TooSmall, fieldsRead_cleared hlook hzs]
    cases hzs with
    | tooSmall h => exact h
    | faulted | delivered => simp at hmem

theorem eq_of_len {st : ParkingStatus} (h : Course call xs) (hmem : ⟨.leave (.len st), ()⟩ ∈ xs) :
    st = fieldsRead xs := by
  cases h with
  | again | interrupted => simp at hmem
  | @cleared look ys zs hlook hys hzs =>
    rw [leave_mem_cleared hlook hys] at hmem
    rw [fieldsRead_cleared hlook hzs]
    cases hzs with
    | tooSmall | faulted => simp at hmem
    | delivered => simpa using hmem

end Course

/-! ## The flag -/

variable {c c' c₁ : WatchedConfig} {x : Driver}

/-- Only a reader ever clears the flag. -/
theorem changed_stays {s : WatchedSnap} {l : WatchedLabel} {x : Driver}
    (hx : watchedMachine.Emits s.state l x) (hl : act? l ≠ some .clear)
    (h : s.state.statusChanged = true) : x.statusChanged = true := by
  cases hact : act? l with
  | none => exact (published_of_emits hx hact).2.trans h
  | some a =>
    have hboard : (board (s.log x l)).changed = ((board s).next a).changed := by
      rw [board_of_some hx hact]
    change (board (s.log x l)).changed = true
    rw [hboard]
    cases a with
    | clear => exact absurd hact hl
    | notify => rfl
    | _ => exact h

/-- A reader that is told that nothing has changed. -/
def Idles : WatchedLabel → Prop
  | .op _ (.inr .readChanged) changed => changed = false
  | _ => False

/-- Until a reader clears it the flag stays up, and a reader that looks at it sees it. -/
theorem changed_of_steps (h : watchedMachine.Steps c c') (hup : c.state.statusChanged = true)
    (hclear : ∀ l ∈ c'.since c.toSnap, act? l ≠ some .clear) :
    c'.state.statusChanged = true ∧ ∀ l ∈ c'.since c.toSnap, ¬Idles l := by
  refine h.invariant_of_labels
    (I := fun s ↦ s.state.statusChanged = true ∧ ∀ l ∈ s.since c.toSnap, ¬Idles l) hclear
    ⟨hup, by simp [Snap.since]⟩ fun {c₁ c₂ l} hsteps _ hl hlog hno hc₁ ↦ ?_
  refine ⟨changed_stays hl hno hc₁.1, ?_⟩
  rw [hlog, Snap.since_log (Machine.Steps.trace_prefix hsteps)]
  refine List.forall_mem_append.mpr ⟨hc₁.2, List.forall_mem_singleton.mpr ?_⟩
  rcases l with _ | ⟨t, o | o, r⟩ | _
  · exact id
  · exact id
  · cases o with
    | readChanged =>
      obtain ⟨rfl, -⟩ := exec_read.mp hl
      exact ne_false_of_eq_true hc₁.1
    | _ => exact id
  · exact id

/-! ## A call in a run -/

/-- Where a call has just begun. -/
def begun (c : WatchedConfig) (call : ReadCall) : WatchedConfig :=
  ⟨c.toSnap.log c.state (.start (.inr ()) (.inr call)),
    Function.update c.thread (.inr ()) (some (readJob call).inr)⟩

theorem begun_thread (c : WatchedConfig) (call : ReadCall) : (begun c call).thread
    = Function.update c.thread (.inr ()) (some (readJob call).inr) := rfl

/-- The call begins in `c` and has returned in `c'`. What the driver does meanwhile is left open. -/
structure ReadFrom (c : WatchedConfig) (call : ReadCall) (c' : WatchedConfig) : Prop where
  idle : c.thread (.inr ()) = none
  steps : watchedMachine.Steps (begun c call) c'
  once : ∀ l ∈ c'.since (begun c call).toSnap, ¬Begins (.inr ()) l
  done : c'.thread (.inr ()) = none

/-- What the reader is answered from one moment to another. -/
def readAnswers (s s' : WatchedSnap) : List ReadAnswer :=
  (Machine.answers (.inr ()) (s'.since s)).filterMap inrAnswer?

/-- What a call is answered. -/
abbrev callAnswers (c : WatchedConfig) (call : ReadCall) (c' : WatchedConfig) : List ReadAnswer :=
  readAnswers (begun c call).toSnap c'.toSnap

/-- The beginning of a call is a step. -/
theorem ReadFrom.begins (h : ReadFrom c call c') : watchedMachine.Step c (begun c call) :=
  .start h.idle rfl

theorem answers_eq {s s' : WatchedSnap} {ys : List ReadAnswer}
    (h : Machine.answers (.inr ()) (s'.since s) = ys.map answerInr) : readAnswers s s' = ys := by
  rw [readAnswers, h]
  exact filterMap_inrAnswer ys

/-- The call takes one of the courses. -/
theorem ReadFrom.course (h : ReadFrom c call c') : Course call (callAnswers c call c') := by
  have hmakes := Machine.Steps.makes h.steps (Function.update_self ..) h.done h.once
  obtain ⟨ys, hys, hjob⟩ := makes_inr hmakes
  rw [callAnswers, answers_eq hys]
  exact readJob_course hjob

theorem mem_readAnswers {s s' : WatchedSnap} {o : ReadOp} {r : o.Resp} :
    ⟨o, r⟩ ∈ readAnswers s s' ↔ .op (.inr ()) (.inr o) r ∈ s'.since s := by
  rw [readAnswers, mem_filterMap_inrAnswer]
  exact Machine.mem_answers

/-- The flag is cleared only where the reader is answered so. -/
theorem clears_of_act {l : WatchedLabel} {s : WatchedSnap} (hc : watchedMachine.Steps (.init x) c)
    (hl : l ∈ c.since s) (hact : act? l = some .clear) : Clears (readAnswers s c.toSnap) := by
  unfold act? at hact
  split at hact <;> cases hact
  rename_i t r
  rcases t with t | u
  · cases Machine.Steps.isLeft_of_mem hc (List.mem_of_mem_drop hl)
  · exact mem_readAnswers.mpr hl

/-- While the reader clears nothing, the flag stays up, and the reader sees it. -/
theorem changed_of_answers (hc : watchedMachine.Steps (.init x) c) (h : watchedMachine.Steps c c')
    (hup : c.state.statusChanged = true) (hclear : ¬Clears (readAnswers c.toSnap c'.toSnap)) :
    c'.state.statusChanged = true ∧ ⟨.readChanged, false⟩ ∉ readAnswers c.toSnap c'.toSnap := by
  obtain ⟨hup', hidles⟩ := changed_of_steps h hup fun l hl hact ↦
    hclear (clears_of_act (hc.trans h) hl hact)
  exact ⟨hup', fun hmem ↦ hidles _ (mem_readAnswers.mp hmem) rfl⟩

/-- Unless a signal ends its wait, its buffer is too small or the copy fails, the call delivers the
status that it reads. -/
def Served (call : ReadCall) (xs : List ReadAnswer) : Prop :=
  ¬Interrupted xs → ¬TooSmall xs call → ¬CopyFails xs → Delivers xs

/-- If the call returns an error it has not cleared the flag, and a change that was pending before
is still pending when the next call begins, which is served. -/
def KeepsNotice (c : WatchedConfig) (call : ReadCall) (c' : WatchedConfig) : Prop :=
  ReturnsError (callAnswers c call c') →
    ¬Clears (callAnswers c call c')
      ∧ (c.state.statusChanged = true → ∀ c₁, watchedMachine.Steps c' c₁ →
        (∀ l ∈ c₁.since c'.toSnap, ¬Begins (.inr ()) l) → c₁.state.statusChanged = true
          ∧ ∀ call₁ c₂, ReadFrom c₁ call₁ c₂ → Served call₁ (callAnswers c₁ call₁ c₂))

/-- While nobody calls, the flag stays up. -/
theorem changed_until_call (hc : watchedMachine.Steps (.init x) c)
    (h : watchedMachine.Steps c c') (hidle : c.thread (.inr ()) = none)
    (honce : ∀ l ∈ c'.since c.toSnap, ¬Begins (.inr ()) l) (hup : c.state.statusChanged = true) :
    c'.state.statusChanged = true := by
  have hanswers : readAnswers c.toSnap c'.toSnap = [] := by
    rw [readAnswers, Machine.Steps.answers_of_idle h hidle honce]
    rfl
  refine (changed_of_answers hc h hup ?_).1
  rw [hanswers]
  exact List.not_mem_nil

/-- A call that begins with the flag up is served. -/
theorem ReadFrom.served (hc : watchedMachine.Steps (.init x) c) (h : ReadFrom c call c')
    (hup : c.state.statusChanged = true) : Served call (callAnswers c call c') := by
  refine h.course.delivers fun hclear ↦ ?_
  exact (changed_of_answers (c := begun c call) (hc.tail h.begins) h.steps hup hclear).2

/-- A call that gets past its wait uses the notification up: if the record then does not fit the
buffer, or cannot be copied, the change is lost to the next call. -/
theorem notice_kept_iff (hc : watchedMachine.Steps (.init x) c) (h : ReadFrom c call c') :
    KeepsNotice c call c' ↔ ¬(GetsFlag (callAnswers c call c')
      ∧ (TooSmall (callAnswers c call c') call ∨ CopyFails (callAnswers c call c'))) := by
  rw [← h.course.spoils_iff]
  constructor
  · rintro hkeeps ⟨herror, hclears⟩
    exact (hkeeps herror).1 hclears
  · intro hspoils herror
    have hclear : ¬Clears (callAnswers c call c') := fun hclears ↦ hspoils ⟨herror, hclears⟩
    refine ⟨hclear, fun hup c₁ h₁ honce ↦ ?_⟩
    have hbegun : watchedMachine.Steps (.init x) (begun c call) := hc.tail h.begins
    have hc' : watchedMachine.Steps (.init x) c' := hbegun.trans h.steps
    have hup' := (changed_of_answers hbegun h.steps hup hclear).1
    have hup₁ := changed_until_call hc' h₁ h.done honce hup'
    have hc₁ : watchedMachine.Steps (.init x) c₁ := hc'.trans h₁
    exact ⟨hup₁, fun call₁ c₂ hread ↦ hread.served hc₁ hup₁⟩

/-! ## Two calls -/

theorem exists_readFrom (call : ReadCall) {Q : Unit → WatchedSnap → Prop}
    (hidle : c.thread (.inr ()) = none)
    (h : watchedMachine.May (.inr ()) (readJob call).inr Q (begun c call).toSnap) :
    ∃ c', ReadFrom c call c' ∧ Q () c'.toSnap := by
  have hrun : (begun c call).thread (.inr ()) = some (readJob call).inr := by
    rw [begun_thread, Function.update_self]
  obtain ⟨c', hsteps, hthread, hQ, honce⟩ := h.steps_once hrun
  exact ⟨c', ⟨hidle, hsteps, honce, by rw [hthread, Function.update_self]⟩, hQ⟩

/-- Nothing has changed, and the call does not wait. -/
theorem nonblocking_keeps : ∃ call c', call.nonblock = true ∧ call.count = 63
    ∧ ReadFrom (.init .init) call c' ∧ KeepsNotice (.init .init) call c' := by
  let call : ReadCall := ⟨true, 63, _, .refl _⟩
  have hmay : watchedMachine.May (.inr ()) (readJob call).inr
      (fun _ s ↦ readAnswers (begun (.init .init) call).toSnap s
        = [⟨.readChanged, false⟩, ⟨.leave .eagain, ()⟩]) (begun (.init .init) call).toSnap := by
    unfold readJob
    refine .bind_inr (.bind_inr (readPerform_may (o := .readChanged) false rfl ?_))
    exact .ret (readPerform_may (o := .leave .eagain) () trivial rfl)
  obtain ⟨c', hread, hc'⟩ := exists_readFrom call rfl hmay
  refine ⟨call, c', rfl, rfl, hread, (notice_kept_iff (x := .init) .refl hread).mpr ?_⟩
  rw [callAnswers, hc']
  simp [GetsFlag]

/-- Its fixed parts alone take 36 characters. -/
theorem record_length_gt (st : ParkingStatus) : 16 < st.record.length := by
  have hfixed : "Slot1:".length + " Slot2:".length + "\nDistance1:".length = 24 := by decide
  simp only [ParkingStatus.record, String.length_append]
  omega

/-- A vehicle comes, and the call's buffer has 16 bytes: the call fails, and the flag is down. -/
theorem short_read_spoils : ∃ c call c', WatchedReachable c ∧ call.nonblock = false
    ∧ call.count = 16 ∧ ReadFrom c call c' ∧ ¬KeepsNotice c call c' := by
  obtain ⟨c, hc, -, hchanged, -⟩ := exists_announced
  have hinl : WatchedReachable c.inl := watched_of_slot hc
  let call : ReadCall := ⟨false, 16, _, .refl _⟩
  have hmay : watchedMachine.May (.inr ()) (readJob call).inr
      (fun _ s ↦ s.state.statusChanged = false) (begun c.inl call).toSnap := by
    unfold readJob
    refine .bind_inr (.bind_inr (readPerform_may (o := .waitChanged) false (.inr hchanged) ?_))
    refine .bind_inr (readPerform_may (o := .clearChanged) () trivial ?_)
    refine .bind_inr (readFields_may call.order .init
      (known_log (known_log (known_log (known_inl c) id) id) id) fun s hstate _ ↦ ?_)
    rw [if_pos (record_length_gt _)]
    exact .ret (readPerform_may (o := .leave .einval) () trivial (congrArg _ hstate))
  obtain ⟨c', hread, hc'⟩ := exists_readFrom call rfl hmay
  refine ⟨c.inl, call, c', hinl, rfl, rfl, hread, fun hkeeps ↦ ?_⟩
  have hclears : Clears (callAnswers c.inl call c') := by
    by_contra hclear
    have hup := (changed_of_answers (hinl.tail hread.begins) hread.steps hchanged hclear).1
    rw [hc'] at hup
    cases hup
  have herror := (hread.course.returnsError_iff hclears).mpr (.inl (record_length_gt _))
  exact (hkeeps herror).1 hclears

end ParkingService.Slots
