import Mathlib.Data.List.Basic
import NasOs.Library.Machine

/-!
# Calls of firewalld

The four operations of `DBusFirewall` run in threads, because the client of firewalld is synchronous,
and under a lock, because firewalld stops responding to concurrent calls.  A call that takes too long is
given up: it raises and releases the lock.  Its thread cannot be stopped; if it has begun, it goes on,
and the next call starts a thread of its own.

Hence at most one thread is in a method of the client as long as the lock is taken only once the threads
of the calls that were given up have ended.
-/

/-- The methods of the client that the operations call. -/
inductive ClientMethod where
  | getDefaultZone
  | addService (zone service : String)
  /-- `config().getZoneByName(zone).addService`. -/
  | addPermanentService (zone service : String)
  | removeService (zone service : String)
  /-- `config().getZoneByName(zone).removeService`. -/
  | removePermanentService (zone service : String)
  | queryService (zone service : String)
  deriving DecidableEq

/-- The operations of `DBusFirewall`. -/
inductive FirewallOp where
  | defaultZone
  | ensureService (zone service : String)
  | removeService (zone service : String)
  | hasService (zone service : String)
  deriving DecidableEq

namespace FirewallOp

/-- What the thread of an operation calls. -/
def methods : FirewallOp → List ClientMethod
  | .defaultZone => [.getDefaultZone]
  | .ensureService zone service => [.addService zone service, .addPermanentService zone service]
  | .removeService zone service => [.removeService zone service, .removePermanentService zone service]
  | .hasService zone service => [.queryService zone service]

/-- The error of firewalld with this code is a success. -/
def tolerates (code : String) : FirewallOp → Bool
  | .ensureService _ _ => code == "ALREADY_ENABLED"
  | .removeService _ _ => code == "NOT_ENABLED"
  | _ => false

end FirewallOp

/-- How far the thread of a call is. -/
inductive FirewallThread where
  /-- The executor has not begun it. -/
  | queued
  /-- Between the methods of the client. -/
  | outside (todo : List ClientMethod)
  /-- In a method of the client. -/
  | inside (method : ClientMethod) (todo : List ClientMethod)
  | ended
  deriving DecidableEq

/-- How far a call is. -/
inductive FirewallStage where
  /-- It waits for the lock. -/
  | waiting
  /-- It has the lock, and waits for its thread. -/
  | calling
  /-- It returned or raised, or was given up. -/
  | ended
  deriving DecidableEq

/-- A call of an operation, with its thread, if that was submitted. -/
structure FirewallCall where
  op : FirewallOp
  stage : FirewallStage
  thread : Option FirewallThread
  deriving DecidableEq

/-- The calls of a `DBusFirewall` in their order, and which of them has the lock. -/
structure DBusFirewall where
  calls : List FirewallCall
  lock : Option ℕ

/-- What the event loop, the threads and firewalld do. -/
inductive FirewallLabel where
  /-- An operation is called. -/
  | call (op : FirewallOp)
  /-- A call gets the lock, and submits its thread. -/
  | acquire (i : ℕ)
  /-- The executor begins the thread of a call. -/
  | begin (i : ℕ)
  /-- A thread calls the next method of the client. -/
  | enter (i : ℕ)
  /-- The method returns or raises an error with a code. -/
  | leave (i : ℕ) (raised : Option String)
  /-- The event loop sees that the thread of a call ended. -/
  | finish (i : ℕ)
  /-- A call has taken too long. -/
  | giveUp (i : ℕ)
  deriving DecidableEq

/-- The thread has not ended. -/
def FirewallThread.isGoing : FirewallThread → Bool
  | .ended => false
  | _ => true

/-- The thread is in a method of the client. -/
def FirewallThread.isInside : FirewallThread → Bool
  | .inside _ _ => true
  | _ => false

namespace DBusFirewall

/-- No operation was called. -/
def start : DBusFirewall :=
  ⟨[], none⟩

/-- A call becomes another. -/
def set (s : DBusFirewall) (i : ℕ) (call : FirewallCall) (lock : Option ℕ) : DBusFirewall :=
  ⟨s.calls.set i call, lock⟩

/-- The thread of an operation, once a method has ended. -/
def afterMethod (op : FirewallOp) (todo : List ClientMethod) : Option String → FirewallThread
  | some code => if op.tolerates code ∧ todo ≠ [] then .outside todo else .ended
  | none => if todo ≠ [] then .outside todo else .ended

/-- The thread of a call that is given up: one that was not begun never is. -/
def abandoned : Option FirewallThread → Option FirewallThread
  | some .queued => none
  | thread => thread

/-- The machine of a `DBusFirewall`.  The lock goes to the call that has waited longest. -/
def machine : Machine DBusFirewall FirewallLabel where
  step s
    | .call op => some { s with calls := s.calls ++ [⟨op, .waiting, none⟩] }
    | .acquire i =>
        match s.calls[i]? with
        | some ⟨op, .waiting, _⟩ =>
            if s.lock = none ∧ ∀ call ∈ s.calls.take i, call.stage ≠ .waiting then
              some (s.set i ⟨op, .calling, some .queued⟩ (some i))
            else none
        | _ => none
    | .begin i =>
        match s.calls[i]? with
        | some ⟨op, stage, some .queued⟩ =>
            some (s.set i ⟨op, stage, some (.outside op.methods)⟩ s.lock)
        | _ => none
    | .enter i =>
        match s.calls[i]? with
        | some ⟨op, stage, some (.outside (method :: todo))⟩ =>
            some (s.set i ⟨op, stage, some (.inside method todo)⟩ s.lock)
        | _ => none
    | .leave i raised =>
        match s.calls[i]? with
        | some ⟨op, stage, some (.inside _ todo)⟩ =>
            some (s.set i ⟨op, stage, some (afterMethod op todo raised)⟩ s.lock)
        | _ => none
    | .finish i =>
        match s.calls[i]? with
        | some ⟨op, .calling, some .ended⟩ => some (s.set i ⟨op, .ended, some .ended⟩ none)
        | _ => none
    | .giveUp i =>
        match s.calls[i]? with
        | some ⟨op, .calling, thread⟩ =>
            if thread = some .ended then none else some (s.set i ⟨op, .ended, abandoned thread⟩ none)
        | _ => none

/-- The thread of the call has not ended. -/
def goes (s : DBusFirewall) (i : ℕ) : Bool :=
  (s.calls[i]?.bind FirewallCall.thread).any FirewallThread.isGoing

/-- The thread of the call is in a method of the client. -/
def inside (s : DBusFirewall) (i : ℕ) : Bool :=
  (s.calls[i]?.bind FirewallCall.thread).any FirewallThread.isInside

/-- At most one thread is in a method of the client. -/
def Exclusive (s : DBusFirewall) : Prop :=
  ∀ i j, s.inside i = true → s.inside j = true → i = j

/-- The lock is taken only when the threads of all calls that are over have ended. -/
def AcquiresQuiet (s : DBusFirewall) : FirewallLabel → Prop
  | .acquire _ => ∀ call ∈ s.calls, call.stage = .ended →
      call.thread.any FirewallThread.isGoing = false
  | _ => True

instance decidableAcquiresQuiet (s : DBusFirewall) :
    (label : FirewallLabel) → Decidable (s.AcquiresQuiet label)
  | .acquire _ => inferInstanceAs (Decidable (∀ call ∈ s.calls, call.stage = .ended →
      call.thread.any FirewallThread.isGoing = false))
  | .call _ => isTrue trivial
  | .begin _ => isTrue trivial
  | .enter _ => isTrue trivial
  | .leave _ _ => isTrue trivial
  | .finish _ => isTrue trivial
  | .giveUp _ => isTrue trivial

/-! ### The threads that have not ended -/

/-- At most one thread has not ended, and if a call has the lock it is its own. -/
structure Inv (s : DBusFirewall) : Prop where
  waiting : ∀ (i : ℕ) (call : FirewallCall), s.calls[i]? = some call → call.stage = .waiting →
    call.thread = none
  calling : ∀ (i : ℕ) (call : FirewallCall), s.calls[i]? = some call → call.stage = .calling →
    s.lock = some i
  held : ∀ k, s.lock = some k → ∀ i, s.goes i = true → i = k
  one : ∀ i j, s.goes i = true → s.goes j = true → i = j

section

variable {s s' : DBusFirewall} {i : ℕ} {call call' : FirewallCall} {lock : Option ℕ}

/-- The thread of a call that was changed. -/
theorem goes_set_self (hcall : s.calls[i]? = some call) :
  (s.set i call' lock).goes i = call'.thread.any FirewallThread.isGoing
  := by
  obtain ⟨hi, -⟩ := List.getElem?_eq_some_iff.mp hcall
  rw [goes, set, List.getElem?_set_self hi, Option.bind_some]

/-- The threads of the other calls. -/
theorem goes_set_of_ne {j : ℕ} (hij : i ≠ j) :
  (s.set i call' lock).goes j = s.goes j
  := by
  rw [goes, set, List.getElem?_set_ne hij, goes]

/-- The thread of a call. -/
theorem goes_eq (hcall : s.calls[i]? = some call) :
  s.goes i = call.thread.any FirewallThread.isGoing
  := by
  rw [goes, hcall, Option.bind_some]

/-- A thread in a method of the client has not ended. -/
theorem goes_of_inside (h : s.inside i = true) :
  s.goes i = true
  := by
  obtain ⟨thread, hthread, hinside⟩ := (Option.any_eq_true _ _).mp h
  apply (Option.any_eq_true _ _).mpr
  use thread, hthread
  cases thread with
  | inside method todo => rfl
  | _ => cases hinside

/-- One thread at most is in a method of the client. -/
theorem Inv.exclusive (h : Inv s) :
  s.Exclusive
  := fun i j hi hj => h.one i j (goes_of_inside hi) (goes_of_inside hj)

/-- A call is changed, so that no other thread than its own may go on. -/
theorem Inv.set (h : Inv s) (hcall : s.calls[i]? = some call)
    (hwaiting : call'.stage = .waiting → call'.thread = none)
    (hcalling : ∀ (j : ℕ) (other : FirewallCall), j ≠ i → s.calls[j]? = some other →
      other.stage = .calling → lock = some j)
    (hself : call'.stage = .calling → lock = some i)
    (hgoes : ∀ j, j ≠ i → s.goes j = true →
      call'.thread.any FirewallThread.isGoing = false ∧ ∀ k, lock = some k → j = k)
    (hheld : call'.thread.any FirewallThread.isGoing = true → ∀ k, lock = some k → i = k) :
  Inv (s.set i call' lock)
  := by
  obtain ⟨hi, -⟩ := List.getElem?_eq_some_iff.mp hcall
  have hcases : ∀ (j : ℕ) (other : FirewallCall), (s.set i call' lock).calls[j]? = some other →
      (j = i ∧ other = call') ∨ (j ≠ i ∧ s.calls[j]? = some other) := by
    intro j other hother
    by_cases hij : j = i
    · left
      subst hij
      rw [DBusFirewall.set, List.getElem?_set_self hi, Option.some.injEq] at hother
      exact ⟨rfl, hother.symm⟩
    · right
      rw [DBusFirewall.set, List.getElem?_set_ne (Ne.symm hij)] at hother
      exact ⟨hij, hother⟩
  constructor
  · intro j other hother hstage
    rcases hcases j other hother with ⟨-, rfl⟩ | ⟨-, hother⟩
    · apply hwaiting hstage
    · apply h.waiting j other hother hstage
  · intro j other hother hstage
    rcases hcases j other hother with ⟨rfl, rfl⟩ | ⟨hij, hother⟩
    · apply hself hstage
    · apply hcalling j other hij hother hstage
  · intro k hk j hj
    by_cases hij : j = i
    · subst hij
      rw [goes_set_self hcall] at hj
      apply hheld hj k hk
    · rw [goes_set_of_ne (Ne.symm hij)] at hj
      apply (hgoes j hij hj).2 k hk
  · intro j k hj hk
    by_cases hij : j = i
    · subst hij
      by_cases hik : k = j
      · apply hik.symm
      · rw [goes_set_self hcall] at hj
        rw [goes_set_of_ne (Ne.symm hik)] at hk
        rw [(hgoes k hik hk).1] at hj
        cases hj
    · rw [goes_set_of_ne (Ne.symm hij)] at hj
      by_cases hik : k = i
      · subst hik
        rw [goes_set_self hcall, (hgoes j hij hj).1] at hk
        cases hk
      · rw [goes_set_of_ne (Ne.symm hik)] at hk
        apply h.one j k hj hk

/-- A thread goes on. -/
theorem Inv.move (h : Inv s) (hcall : s.calls[i]? = some call) (hstage : call'.stage = call.stage)
    (hgoing : s.goes i = true) (hwaits : call.stage ≠ .waiting) :
  Inv (s.set i call' s.lock)
  := by
  apply h.set hcall
  · intro hwaiting
    rw [hstage] at hwaiting
    apply absurd hwaiting hwaits
  · intro j other _ hother hcalling
    apply h.calling j other hother hcalling
  · intro hcalling
    rw [hstage] at hcalling
    apply h.calling i call hcall hcalling
  · intro j hij hj
    apply absurd (h.one j i hj hgoing) hij
  · intro _ k hk
    apply h.held k hk i hgoing

/-- A call that ends releases the lock. -/
theorem Inv.release (h : Inv s) (hcall : s.calls[i]? = some call) (hcalling : call.stage = .calling)
    (hstage : call'.stage = .ended) :
  Inv (s.set i call' none)
  := by
  have hlock := h.calling i call hcall hcalling
  apply h.set hcall
  · intro hwaiting
    rw [hstage] at hwaiting
    cases hwaiting
  · intro j other hij hother hother'
    have hj := h.calling j other hother hother'
    rw [hlock, Option.some.injEq] at hj
    apply absurd hj.symm hij
  · intro hcalling'
    rw [hstage] at hcalling'
    cases hcalling'
  · intro j hij hj
    apply absurd (h.held i hlock j hj) hij
  · rintro _ k ⟨⟩

/-- No thread goes when the lock is taken. -/
theorem Inv.none_goes (h : Inv s) (hlock : s.lock = none) (hquiet : s.AcquiresQuiet (.acquire i))
    (j : ℕ) :
  s.goes j = false
  := by
  rw [goes]
  cases hother : s.calls[j]? with
  | none => rfl
  | some other =>
      rw [Option.bind_some]
      cases hstage : other.stage with
      | waiting =>
          rw [h.waiting j other hother hstage]
          rfl
      | calling =>
          have hj := h.calling j other hother hstage
          rw [hlock] at hj
          cases hj
      | ended => apply hquiet other (List.mem_of_getElem? hother) hstage

/-- Every step with which the lock is taken quietly keeps the invariant. -/
theorem Inv.step (h : Inv s) {label : FirewallLabel} (hquiet : s.AcquiresQuiet label)
    (hstep : machine.step s label = some s') :
  Inv s'
  := by
  simp only [machine] at hstep
  cases label with
  | call op =>
      cases hstep
      have hold : ∀ (j : ℕ) (other : FirewallCall), (s.calls ++ [⟨op, .waiting, none⟩])[j]? = some other →
          s.calls[j]? = some other ∨ other = ⟨op, .waiting, none⟩ := by
        intro j other hother
        rw [List.getElem?_append] at hother
        split at hother
        · left
          apply hother
        · right
          rw [List.getElem?_singleton] at hother
          obtain ⟨-, hother⟩ := Option.ite_none_right_eq_some.mp hother
          apply (Option.some.inj hother).symm
      have hgoes : ∀ j, DBusFirewall.goes ⟨s.calls ++ [⟨op, .waiting, none⟩], s.lock⟩ j = true →
          s.goes j = true := by
        intro j hj
        obtain ⟨thread, hthread, hgoing⟩ := (Option.any_eq_true _ _).mp hj
        obtain ⟨other, hother, hthread⟩ := Option.bind_eq_some_iff.mp hthread
        rcases hold j other hother with hother | rfl
        · rw [goes_eq hother, hthread]
          apply hgoing
        · cases hthread
      constructor
      · intro j other hother hstage
        rcases hold j other hother with hother | rfl
        · apply h.waiting j other hother hstage
        · rfl
      · intro j other hother hstage
        rcases hold j other hother with hother | rfl
        · apply h.calling j other hother hstage
        · cases hstage
      · intro k hk j hj
        apply h.held k hk j (hgoes j hj)
      · intro j k hj hk
        apply h.one j k (hgoes j hj) (hgoes k hk)
  | acquire i =>
      simp only at hstep
      split at hstep
      · rename_i op thread hcall
        obtain ⟨⟨hlock, -⟩, hstep⟩ := Option.ite_none_right_eq_some.mp hstep
        cases hstep
        apply h.set hcall
        · rintro ⟨⟩
        · intro j other _ hother hstage
          have hj := h.calling j other hother hstage
          rw [hlock] at hj
          cases hj
        · intro _
          rfl
        · intro j _ hj
          rw [h.none_goes hlock hquiet j] at hj
          cases hj
        · rintro _ k ⟨⟩
          rfl
      · cases hstep
  | begin i =>
      simp only at hstep
      split at hstep
      · rename_i op stage hcall
        cases hstep
        apply h.move hcall
        · rfl
        · rw [goes_eq hcall]
          rfl
        · intro hstage
          cases h.waiting i _ hcall hstage
      · cases hstep
  | enter i =>
      simp only at hstep
      split at hstep
      · rename_i op stage method todo hcall
        cases hstep
        apply h.move hcall
        · rfl
        · rw [goes_eq hcall]
          rfl
        · intro hstage
          cases h.waiting i _ hcall hstage
      · cases hstep
  | leave i raised =>
      simp only at hstep
      split at hstep
      · rename_i op stage method todo hcall
        cases hstep
        apply h.move hcall
        · rfl
        · rw [goes_eq hcall]
          rfl
        · intro hstage
          cases h.waiting i _ hcall hstage
      · cases hstep
  | finish i =>
      simp only at hstep
      split at hstep
      · rename_i op hcall
        cases hstep
        apply h.release hcall rfl rfl
      · cases hstep
  | giveUp i =>
      simp only at hstep
      split at hstep
      · rename_i op thread hcall
        obtain ⟨-, hstep⟩ := Option.ite_none_left_eq_some.mp hstep
        cases hstep
        apply h.release hcall rfl rfl
      · cases hstep

end

/-- In every run in which the lock is taken only once the threads of the calls that are over have ended, at
most one thread is in a method of the client. -/
theorem exclusive_of_run {labels : List FirewallLabel} {s : DBusFirewall}
    (hquiet : machine.Along AcquiresQuiet start labels) (hrun : machine.run start labels = some s) :
  s.Exclusive
  := by
  apply Inv.exclusive
  apply Machine.run_invariant (I := Inv) _ _ hquiet hrun
  · intro s label s' hs hlabel hstep
    apply hs.step hlabel hstep
  · constructor
    · rintro i call ⟨⟩
    · rintro i call ⟨⟩
    · rintro k ⟨⟩
    · rintro i j ⟨⟩

/-- A call is given up before its thread is begun, and the next one gets the lock. -/
def givenUpInTime : List FirewallLabel :=
  [.call .defaultZone, .acquire 0, .giveUp 0, .call (.hasService "public" "samba"), .acquire 1, .begin 1,
    .enter 1]

theorem exclusive_givenUpInTime :
  ∃ s, machine.run start givenUpInTime = some s ∧ s.inside 1 = true ∧ s.Exclusive
  := by
  have hrun : (machine.run start givenUpInTime).any (fun s => s.inside 1) = true := by decide +kernel
  obtain ⟨s, hs, hinside⟩ := (Option.any_eq_true _ _).mp hrun
  use s, hs, hinside
  apply exclusive_of_run _ hs
  decide +kernel

/-- firewalld does not answer a call, which is given up, and the next one gets the lock. -/
def wedgedCall : List FirewallLabel :=
  [.call (.ensureService "public" "samba"), .acquire 0, .begin 0, .enter 0, .giveUp 0,
    .call (.hasService "public" "samba"), .acquire 1, .begin 1, .enter 1]

/-- Two threads are in methods of the client. -/
theorem not_exclusive_wedgedCall :
  ¬ ∀ (labels : List FirewallLabel) (s : DBusFirewall), machine.run start labels = some s → s.Exclusive
  := by
  intro h
  have hrun : (machine.run start wedgedCall).any (fun s => s.inside 0 && s.inside 1) = true := by
    decide +kernel
  obtain ⟨s, hs, hinside⟩ := (Option.any_eq_true _ _).mp hrun
  rw [Bool.and_eq_true] at hinside
  cases h wedgedCall s hs 0 1 hinside.1 hinside.2

end DBusFirewall
