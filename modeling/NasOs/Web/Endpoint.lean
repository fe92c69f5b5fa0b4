import Mathlib.Data.List.Nodup
import Mathlib.Data.List.Perm.Subperm

/-!
# The server's end of a live connection

`ws_endpoint` reads the messages of a browser one after the other and keeps a task for every topic that
the browser subscribed to.  A task subscribes to its topic on the bus when it begins, and then sends what
it finds in its queue.  A task that is cancelled sends nothing more; it ends when it is next run.

A topic has at most one task that was not cancelled, so that a publication is sent at most once
(`WsEndpoint.subperm_publish`).
-/

/-- What a browser sends. -/
inductive HubMessage where
  | subscribe (topic : String)
  | unsubscribe (topic : String)
  deriving DecidableEq

/-- What the server sends.  The number of a publication stands for what was published. -/
structure WsFrame where
  topic : String
  data : ℕ
  deriving DecidableEq

/-- How far the task of a topic is. -/
inductive ForwardStage where
  /-- It was not begun. -/
  | created
  /-- It is subscribed on the bus, where its queue holds what was published since. -/
  | forwarding (queue : List WsFrame)
  /-- It was cancelled, and has not been run since. -/
  | cancelled
  | ended
  deriving DecidableEq

namespace ForwardStage

/-- The task forwards its topic, or is about to. -/
def active : ForwardStage → Bool
  | .created => true
  | .forwarding _ => true
  | _ => false

/-- The numbers of the publications that the task is going to send. -/
def pending : ForwardStage → List ℕ
  | .forwarding queue => queue.map WsFrame.data
  | _ => []

/-- `Task.cancel`. -/
def cancel : ForwardStage → ForwardStage
  | .ended => .ended
  | _ => .cancelled

end ForwardStage

/-- The task `forward(topic)`. -/
structure ForwardTask where
  topic : String
  stage : ForwardStage
  deriving DecidableEq

/-- `Task.cancel`. -/
def ForwardTask.cancel (task : ForwardTask) : ForwardTask :=
  { task with stage := task.stage.cancel }

/-- `_QUEUE_MAXSIZE`. -/
def queueMaxsize : ℕ := 64

/-- Put a frame in a queue; if it is full the oldest one goes. -/
def putFrame (queue : List WsFrame) (frame : WsFrame) : List WsFrame :=
  if queue.length < queueMaxsize then queue ++ [frame] else queue.tail ++ [frame]

/-- `EventBus.publish`, as the queue of a task sees it. -/
def ForwardTask.publish (frame : WsFrame) (task : ForwardTask) : ForwardTask :=
  match task.stage with
  | .forwarding queue =>
      if task.topic = frame.topic then ⟨task.topic, .forwarding (putFrame queue frame)⟩ else task
  | _ => task

/-- The local state of `ws_endpoint`: which task `forwarders` has for a topic, all the tasks that were
created, and whether the loop was left. -/
structure WsEndpoint where
  forwarders : List (String × ℕ)
  tasks : List ForwardTask
  left : Bool
  deriving DecidableEq

namespace WsEndpoint

/-- A connection was accepted. -/
def accepted : WsEndpoint :=
  ⟨[], [], false⟩

/-- What the loop does with a message. -/
def receive (e : WsEndpoint) : HubMessage → WsEndpoint
  | .subscribe topic =>
      if (e.forwarders.lookup topic).isNone then
        { e with
          forwarders := e.forwarders ++ [(topic, e.tasks.length)]
          tasks := e.tasks ++ [⟨topic, .created⟩] }
      else e
  | .unsubscribe topic =>
      match e.forwarders.lookup topic with
      | some k =>
          { e with
            forwarders := e.forwarders.filter fun entry => entry.1 ≠ topic
            tasks := e.tasks.modify k ForwardTask.cancel }
      | none => e

/-- The loop is left, and all tasks are cancelled. -/
def disconnect (e : WsEndpoint) : WsEndpoint :=
  { e with tasks := e.tasks.map ForwardTask.cancel, left := true }

/-- `EventBus.publish`. -/
def publish (frame : WsFrame) (e : WsEndpoint) : WsEndpoint :=
  { e with tasks := e.tasks.map (ForwardTask.publish frame) }

/-- The topics in `forwarders`. -/
def topics (e : WsEndpoint) : List String :=
  e.forwarders.map Prod.fst

/-- How far a task is. -/
def stageOf (e : WsEndpoint) (k : ℕ) : Option ForwardStage :=
  e.tasks[k]?.map ForwardTask.stage

/-- A task gets on. -/
def setStage (e : WsEndpoint) (k : ℕ) (stage : ForwardStage) : WsEndpoint :=
  { e with tasks := e.tasks.modify k fun task => { task with stage := stage } }

/-- The numbers of the publications that the tasks are going to send. -/
def pending (e : WsEndpoint) : List ℕ :=
  e.tasks.flatMap fun task => task.stage.pending

/-- `forwarders` has each topic once, with a task of the topic; a task that forwards is there, and unless
the connection was lost a task that is there forwards. -/
structure Ok (lost : Bool) (e : WsEndpoint) : Prop where
  keys : e.topics.Nodup
  found : ∀ entry ∈ e.forwarders, ∃ task, e.tasks[entry.2]? = some task ∧ task.topic = entry.1
    ∧ (lost = false → task.stage.active = true)
  active : ∀ (k : ℕ) (task : ForwardTask), e.tasks[k]? = some task → task.stage.active = true →
    (task.topic, k) ∈ e.forwarders

variable {e : WsEndpoint} {lost : Bool}

/-! ### The tasks of the topics -/

/-- A topic has one task in `forwarders`. -/
theorem Ok.unique (h : e.Ok lost) {topic : String} {k k' : ℕ} (hk : (topic, k) ∈ e.forwarders)
    (hk' : (topic, k') ∈ e.forwarders) :
  k = k'
  := by
  have heq := List.inj_on_of_nodup_map h.keys hk hk' rfl
  exact congrArg Prod.snd heq

/-- A topic has one task that forwards it. -/
theorem Ok.unique_active (h : e.Ok lost) {k k' : ℕ} {task task' : ForwardTask}
    (hk : e.tasks[k]? = some task) (hk' : e.tasks[k']? = some task') (hactive : task.stage.active = true)
    (hactive' : task'.stage.active = true) (htopic : task.topic = task'.topic) :
  k = k'
  := by
  have hmem := h.active k task hk hactive
  rw [htopic] at hmem
  apply h.unique hmem (h.active k' task' hk' hactive')

/-- The connection was accepted without tasks. -/
theorem ok_accepted :
  accepted.Ok lost
  := by
  constructor
  · apply List.nodup_nil
  · rintro entry ⟨⟩
  · rintro k task ⟨⟩

/-- A connection that is lost asks less. -/
theorem Ok.lose (h : e.Ok lost) :
  e.Ok true
  := by
  constructor
  · apply h.keys
  · intro entry hentry
    obtain ⟨task, htask, htopic, -⟩ := h.found entry hentry
    use task, htask, htopic
    rintro ⟨⟩
  · apply h.active

/-- The tasks change, each keeping its topic. -/
theorem Ok.map (h : e.Ok lost) {e' : WsEndpoint} (g : ℕ → ForwardTask → ForwardTask)
    (hforwarders : e'.forwarders = e.forwarders) (htasks : ∀ k, e'.tasks[k]? = e.tasks[k]?.map (g k))
    (htopic : ∀ k task, (g k task).topic = task.topic)
    (hactive : ∀ k task, e.tasks[k]? = some task → (g k task).stage.active = true →
      task.stage.active = true)
    (hkeeps : lost = false → ∀ k task, e.tasks[k]? = some task → task.stage.active = true →
      (g k task).stage.active = true) :
  e'.Ok lost
  := by
  constructor
  · rw [topics, hforwarders]
    apply h.keys
  · intro entry hentry
    rw [hforwarders] at hentry
    obtain ⟨task, htask, hentry, hlost⟩ := h.found entry hentry
    use g entry.2 task
    constructor
    · rw [htasks, htask]
      rfl
    constructor
    · rw [htopic, hentry]
    · intro hnot
      apply hkeeps hnot _ _ htask (hlost hnot)
  · intro k task htask htaskActive
    rw [htasks, Option.map_eq_some_iff] at htask
    obtain ⟨old, hold, rfl⟩ := htask
    rw [htopic, hforwarders]
    apply h.active k old hold (hactive k old hold htaskActive)

/-- A task gets on. -/
theorem Ok.setStage (h : e.Ok lost) {k : ℕ} {stage stage' : ForwardStage} (hstage : e.stageOf k = some stage)
    (hactive : stage'.active = true → stage.active = true)
    (hkeeps : lost = false → stage.active = true → stage'.active = true) :
  (e.setStage k stage').Ok lost
  := by
  have hold : ∀ task, e.tasks[k]? = some task → task.stage = stage := by
    intro task htask
    rw [stageOf, htask] at hstage
    apply Option.some.inj hstage
  apply h.map fun j task => if k = j then { task with stage := stage' } else task
  · rfl
  · intro j
    apply (List.getElem?_modify _ k e.tasks j).trans
    cases e.tasks[j]? with
    | none => rfl
    | some task =>
        split
        · rfl
        · rfl
  · intro j task
    split
    · rfl
    · rfl
  · intro j task htask
    split
    · rename_i hkj
      subst hkj
      rw [hold task htask]
      apply hactive
    · apply id
  · intro hlost j task htask
    split
    · rename_i hkj
      subst hkj
      rw [hold task htask]
      apply hkeeps hlost
    · apply id

/-- Publishing leaves the tasks what they are. -/
theorem Ok.publish (h : e.Ok lost) (frame : WsFrame) :
  (e.publish frame).Ok lost
  := by
  have hpublish : ∀ task : ForwardTask, (task.publish frame).topic = task.topic
      ∧ (task.publish frame).stage.active = task.stage.active := by
    rintro ⟨topic, stage⟩
    cases stage with
    | forwarding queue =>
        rw [ForwardTask.publish]
        dsimp only
        split
        · exact ⟨rfl, rfl⟩
        · exact ⟨rfl, rfl⟩
    | _ => exact ⟨rfl, rfl⟩
  apply h.map fun _ => ForwardTask.publish frame
  · rfl
  · intro k
    apply List.getElem?_map
  · intro k task
    apply (hpublish task).1
  · intro k task _
    rw [(hpublish task).2]
    apply id
  · intro _ k task _
    rw [(hpublish task).2]
    apply id

/-- A task that was cancelled does not forward. -/
theorem active_cancel (stage : ForwardStage) :
  stage.cancel.active = false
  := by
  cases stage with
  | _ => rfl

/-- A connection that was lost is left. -/
theorem Ok.disconnect (h : e.Ok true) :
  e.disconnect.Ok true
  := by
  apply h.map fun _ => ForwardTask.cancel
  · rfl
  · intro k
    apply List.getElem?_map
  · intro k task
    rfl
  · intro k task _ hactive
    rw [ForwardTask.cancel, active_cancel] at hactive
    cases hactive
  · rintro ⟨⟩

/-- A topic is in `forwarders` if it is looked up there. -/
theorem mem_of_lookup {topic : String} {k : ℕ} (h : e.forwarders.lookup topic = some k) :
  (topic, k) ∈ e.forwarders
  := by
  obtain ⟨before, after, hsplit, -⟩ := List.lookup_eq_some_iff.mp h
  rw [hsplit]
  apply List.mem_append_right _ List.mem_cons_self

/-- A topic that is not looked up is not there. -/
theorem notMem_of_lookup {topic : String} (h : e.forwarders.lookup topic = none) :
  topic ∉ e.topics
  := by
  intro hmem
  obtain ⟨entry, hentry, rfl⟩ := List.mem_map.mp hmem
  have hne := List.lookup_eq_none_iff.mp h entry hentry
  rw [bne_self_eq_false] at hne
  cases hne

/-- A subscription leaves each topic with one task. -/
theorem Ok.subscribe (h : e.Ok lost) {topic : String} (hnew : topic ∉ e.topics) :
  Ok lost ⟨e.forwarders ++ [(topic, e.tasks.length)], e.tasks ++ [⟨topic, .created⟩], e.left⟩
  := by
  have hlast : (e.tasks ++ [⟨topic, .created⟩])[e.tasks.length]? = some ⟨topic, .created⟩ :=
    List.getElem?_concat_length
  constructor
  · rw [topics, List.map_append]
    apply List.nodup_append.mpr ⟨h.keys, List.nodup_singleton _, _⟩
    rintro other hother _ hnewTopic rfl
    obtain rfl : other = topic := List.mem_singleton.mp hnewTopic
    apply hnew hother
  · intro entry hentry
    rcases List.mem_append.mp hentry with hentry | hentry
    · obtain ⟨task, htask, hrest⟩ := h.found entry hentry
      use task
      constructor
      · obtain ⟨hlt, -⟩ := List.getElem?_eq_some_iff.mp htask
        apply (List.getElem?_append_left hlt).trans htask
      · apply hrest
    · rw [List.mem_singleton] at hentry
      subst hentry
      exact ⟨_, hlast, rfl, fun _ => rfl⟩
  · intro k task htask hactive
    by_cases hk : k < e.tasks.length
    · apply List.mem_append_left
      apply h.active k task ((List.getElem?_append_left hk).symm.trans htask) hactive
    · obtain ⟨hlt, -⟩ := List.getElem?_eq_some_iff.mp htask
      change k < (e.tasks ++ [_]).length at hlt
      rw [List.length_append, List.length_singleton] at hlt
      obtain rfl : k = e.tasks.length := by omega
      apply List.mem_append_right
      have heq := htask.symm.trans hlast
      cases heq
      apply List.mem_singleton_self

/-- The end of a subscription leaves each topic with one task. -/
theorem Ok.unsubscribe (h : e.Ok lost) {topic : String} {k : ℕ} (hk : (topic, k) ∈ e.forwarders) :
  Ok lost ⟨e.forwarders.filter fun entry => entry.1 ≠ topic, e.tasks.modify k ForwardTask.cancel, e.left⟩
  := by
  obtain ⟨task, htask, htopic, -⟩ := h.found _ hk
  constructor
  · apply List.Nodup.sublist _ h.keys
    apply List.Sublist.map
    apply List.filter_sublist
  · intro entry hentry
    rw [List.mem_filter, decide_eq_true_iff] at hentry
    obtain ⟨hentry, hne⟩ := hentry
    obtain ⟨other, hother, hotherTopic, hlost⟩ := h.found entry hentry
    use other
    constructor
    · apply (List.getElem?_modify_ne _ _ _).trans hother
      intro heq
      rw [← heq, htask] at hother
      cases hother
      apply hne (hotherTopic.symm.trans htopic)
    · exact ⟨hotherTopic, hlost⟩
  · intro j other hother hactive
    by_cases hkj : k = j
    · subst hkj
      have heq := (List.getElem?_modify_eq ForwardTask.cancel k e.tasks).symm.trans hother
      rw [htask] at heq
      cases heq
      rw [ForwardTask.cancel, active_cancel] at hactive
      cases hactive
    · have hold := (List.getElem?_modify_ne ForwardTask.cancel e.tasks hkj).symm.trans hother
      have hmem := h.active j other hold hactive
      apply List.mem_filter.mpr ⟨hmem, _⟩
      rw [decide_eq_true_iff]
      intro hsame
      obtain rfl : other.topic = topic := hsame
      apply hkj (h.unique hk hmem)

/-- A message leaves each topic with one task. -/
theorem Ok.receive (h : e.Ok lost) (message : HubMessage) :
  (e.receive message).Ok lost
  := by
  cases message with
  | subscribe topic =>
      rw [WsEndpoint.receive]
      split
      · rename_i hnone
        apply h.subscribe
        apply notMem_of_lookup (Option.isNone_iff_eq_none.mp hnone)
      · apply h
  | unsubscribe topic =>
      rw [WsEndpoint.receive]
      split
      · rename_i k hk
        apply h.unsubscribe (mem_of_lookup hk)
      · apply h

/-! ### What is going to be sent -/

/-- Tasks of a list, one of which is replaced. -/
theorem perm_modify {tasks : List ForwardTask} {k : ℕ} {task : ForwardTask} (h : tasks[k]? = some task) :
  ∃ rest, (tasks.flatMap fun task => task.stage.pending).Perm (task.stage.pending ++ rest)
    ∧ ∀ g : ForwardTask → ForwardTask, ((tasks.modify k g).flatMap fun task => task.stage.pending).Perm
      ((g task).stage.pending ++ rest)
  := by
  induction tasks generalizing k with
  | nil => cases h
  | cons first tasks ih =>
      cases k with
      | zero =>
          cases h
          use tasks.flatMap fun task => task.stage.pending
          exact ⟨List.Perm.refl _, fun g => List.Perm.refl _⟩
      | succ k =>
          obtain ⟨rest, hrest, hmodify⟩ := ih h
          use first.stage.pending ++ rest
          constructor
          · apply (hrest.append_left first.stage.pending).trans
            apply List.perm_append_comm_assoc
          · intro g
            apply ((hmodify g).append_left first.stage.pending).trans
            apply List.perm_append_comm_assoc

/-- What is sent when a task gets on. -/
theorem perm_setStage {k : ℕ} {stage : ForwardStage} (h : e.stageOf k = some stage) :
  ∃ rest, e.pending.Perm (stage.pending ++ rest)
    ∧ ∀ stage', (e.setStage k stage').pending.Perm (stage'.pending ++ rest)
  := by
  obtain ⟨task, htask, rfl⟩ := Option.map_eq_some_iff.mp h
  obtain ⟨rest, hrest, hmodify⟩ := perm_modify htask
  use rest, hrest
  intro stage'
  apply hmodify

/-- A message adds nothing to what is sent. -/
theorem subperm_receive (e : WsEndpoint) (message : HubMessage) :
  (e.receive message).pending.Subperm e.pending
  := by
  cases message with
  | subscribe topic =>
      rw [receive]
      split
      · rw [pending, List.flatMap_append]
        change (e.pending ++ []).Subperm e.pending
        rw [List.append_nil]
      · apply List.Subperm.refl
  | unsubscribe topic =>
      rw [receive]
      split
      · rename_i k hk
        cases htask : e.tasks[k]? with
        | none =>
            rw [List.modify_eq_self (List.getElem?_eq_none_iff.mp htask)]
            apply List.Subperm.refl
        | some task =>
            obtain ⟨rest, hrest, hmodify⟩ := perm_modify htask
            have hnil : task.cancel.stage.pending = [] := by
              rw [ForwardTask.cancel]
              cases task.stage with
              | _ => rfl
            have hperm := hmodify ForwardTask.cancel
            rw [hnil, List.nil_append] at hperm
            apply hperm.subperm.trans
            apply (List.sublist_append_right _ rest).subperm.trans hrest.symm.subperm
      · apply List.Subperm.refl

/-- Nothing more is sent on a connection that was left. -/
theorem pending_disconnect (e : WsEndpoint) :
  e.disconnect.pending = []
  := by
  apply List.flatMap_eq_nil_iff.mpr
  intro task htask
  obtain ⟨old, -, rfl⟩ := List.mem_map.mp htask
  rw [ForwardTask.cancel]
  cases old.stage with
  | _ => rfl

/-- A task that does not forward the topic of a publication does not see it. -/
theorem publish_of_ne {task : ForwardTask} {frame : WsFrame}
    (h : task.stage.active = true → task.topic ≠ frame.topic) :
  task.publish frame = task
  := by
  obtain ⟨topic, stage⟩ := task
  cases stage with
  | forwarding queue => apply if_neg (h rfl)
  | _ => rfl

/-- What a task sends after a publication. -/
theorem subperm_publish_task (task : ForwardTask) (frame : WsFrame) :
  (task.publish frame).stage.pending.Subperm (frame.data :: task.stage.pending)
  := by
  obtain ⟨topic, stage⟩ := task
  cases stage with
  | forwarding queue =>
      rw [ForwardTask.publish]
      dsimp only
      split
      · have hput : (putFrame queue frame).Sublist (queue ++ [frame]) := by
          rw [putFrame]
          split
          · apply List.Sublist.refl
          · apply (List.tail_sublist queue).append_right
        apply ((hput.map WsFrame.data).subperm).trans
        rw [List.map_append]
        apply (List.perm_append_singleton _ _).subperm
      · apply List.Subperm.cons_self
  | _ => apply List.nil_subperm

/-- Tasks that forward different topics send a publication once. -/
theorem subperm_publish_tasks {tasks : List ForwardTask} {frame : WsFrame}
    (h : tasks.Pairwise fun task task' => task.stage.active = true → task'.stage.active = true →
      task.topic ≠ task'.topic) :
  ((tasks.map (ForwardTask.publish frame)).flatMap fun task => task.stage.pending).Subperm
    (frame.data :: tasks.flatMap fun task => task.stage.pending)
  := by
  induction tasks with
  | nil => apply List.nil_subperm
  | cons task tasks ih =>
      obtain ⟨hfirst, hrest⟩ := List.pairwise_cons.mp h
      rw [List.map_cons, List.flatMap_cons, List.flatMap_cons]
      by_cases htask : task.stage.active = true ∧ task.topic = frame.topic
      · have hothers : tasks.map (ForwardTask.publish frame) = tasks := by
          rw [← List.map_id tasks, List.map_map]
          apply List.map_congr_left
          intro other hother
          apply publish_of_ne
          intro hactive htopic
          apply hfirst other hother htask.1 hactive (htask.2.trans htopic.symm)
        rw [hothers, ← List.cons_append]
        apply (List.subperm_append_right _).mpr
        apply subperm_publish_task
      · rw [publish_of_ne]
        · apply ((List.subperm_append_left _).mpr (ih hrest)).trans
          apply List.perm_middle.subperm
        · intro hactive htopic
          apply htask ⟨hactive, htopic⟩

/-- A publication is sent at most once. -/
theorem Ok.subperm_publish (h : e.Ok lost) (frame : WsFrame) :
  (e.publish frame).pending.Subperm (frame.data :: e.pending)
  := by
  apply subperm_publish_tasks
  rw [List.pairwise_iff_getElem]
  intro i j hi hj hij hactive hactive' htopic
  apply absurd (h.unique_active _ _ hactive hactive' htopic) (Nat.ne_of_lt hij)
  · apply List.getElem?_eq_getElem
  · apply List.getElem?_eq_getElem

end WsEndpoint
