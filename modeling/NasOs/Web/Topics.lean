import NasOs.Web.Delivery

/-!
# The topics of a page and those of its connection

The hub counts the listeners of a topic and tells the server of the first one and of the last.  It says
nothing while its socket is not open, and when the socket opens it names all topics that have listeners.

So the topics that a connection is going to forward, once it has read what is on its way, are those that
have listeners.
-/

/-- The topics that are forwarded after a message. -/
def topicsAfter (topics : List String) : HubMessage → List String
  | .subscribe topic => if topic ∈ topics then topics else topics ++ [topic]
  | .unsubscribe topic => topics.filter fun other => other ≠ topic

/-- A subscription adds its topic. -/
theorem mem_topicsAfter_subscribe {topics : List String} {topic other : String} :
  other ∈ topicsAfter topics (.subscribe topic) ↔ other ∈ topics ∨ other = topic
  := by
  rw [topicsAfter]
  split
  · rename_i hmem
    constructor
    · apply Or.inl
    · rintro (h | rfl)
      · apply h
      · apply hmem
  · rw [List.mem_append, List.mem_singleton]

/-- The end of a subscription removes its topic. -/
theorem mem_topicsAfter_unsubscribe {topics : List String} {topic other : String} :
  other ∈ topicsAfter topics (.unsubscribe topic) ↔ other ∈ topics ∧ other ≠ topic
  := by
  rw [topicsAfter, List.mem_filter, decide_eq_true_iff]

/-- Several subscriptions add their topics. -/
theorem mem_foldl_topicsAfter {topics new : List String} {other : String} :
  other ∈ (new.map HubMessage.subscribe).foldl topicsAfter topics ↔ other ∈ topics ∨ other ∈ new
  := by
  induction new generalizing topics with
  | nil => simp
  | cons topic new ih =>
      rw [List.map_cons, List.foldl_cons, ih, mem_topicsAfter_subscribe, List.mem_cons, or_assoc]

namespace WsEndpoint

/-- A message changes the topics of an endpoint. -/
theorem topics_receive (e : WsEndpoint) (message : HubMessage) :
  (e.receive message).topics = topicsAfter e.topics message
  := by
  have hlookup : ∀ {topic : String} {k : ℕ}, e.forwarders.lookup topic = some k → topic ∈ e.topics := by
    intro topic k hk
    apply List.mem_map.mpr ⟨_, mem_of_lookup hk, rfl⟩
  cases message with
  | subscribe topic =>
      rw [receive, topicsAfter]
      cases hk : e.forwarders.lookup topic with
      | none =>
          rw [if_pos Option.isNone_none, if_neg (notMem_of_lookup hk), topics, List.map_append]
          rfl
      | some k => rw [if_neg (by simp), if_pos (hlookup hk)]
  | unsubscribe topic =>
      rw [receive, topicsAfter]
      cases hk : e.forwarders.lookup topic with
      | none =>
          symm
          apply List.filter_eq_self.mpr
          intro other hother
          rw [decide_eq_true_iff]
          rintro rfl
          apply notMem_of_lookup hk hother
      | some k =>
          change (e.forwarders.filter _).map Prod.fst = (e.forwarders.map Prod.fst).filter _
          rw [List.filter_map]
          rfl

/-- A task forwards the topic, or is about to. -/
def Forwards (e : WsEndpoint) (topic : String) : Prop :=
  ∃ task ∈ e.tasks, task.topic = topic ∧ task.stage.active = true

/-- The topics with tasks are those that are forwarded, on a connection that was not lost. -/
theorem Ok.forwards_iff {e : WsEndpoint} (h : e.Ok false) (topic : String) :
  e.Forwards topic ↔ topic ∈ e.topics
  := by
  constructor
  · rintro ⟨task, htask, rfl, hactive⟩
    obtain ⟨k, hk⟩ := List.getElem?_of_mem htask
    apply List.mem_map.mpr ⟨_, h.active k task hk hactive, rfl⟩
  · intro hmem
    obtain ⟨entry, hentry, rfl⟩ := List.mem_map.mp hmem
    obtain ⟨task, htask, htopic, hactive⟩ := h.found entry hentry
    exact ⟨task, List.mem_of_getElem? htask, htopic, hactive rfl⟩

end WsEndpoint

namespace Page

variable {s s' : Page}

/-! ### The listeners of the page -/

/-- A component listens to the topic. -/
def Listened (s : Page) (topic : String) : Prop :=
  ∃ subscription ∈ s.subscriptions, subscription.topic = topic ∧ subscription.called = false

/-- The topics that have listeners are those of the subscriptions that were not ended, and the sets hold
their listeners. -/
structure Registered (s : Page) : Prop where
  topics : (s.hub.listeners.map Prod.fst).Nodup
  numbers : (s.hub.listeners.map Prod.snd).Nodup
  bound : ∀ entry ∈ s.hub.listeners, entry.2 < s.sets.length
  listeners : (s.subscriptions.map Subscription.listener).Nodup
  standing : ∀ subscription ∈ s.subscriptions, subscription.called = false →
    (subscription.topic, subscription.set) ∈ s.hub.listeners
      ∧ ∃ set, s.sets[subscription.set]? = some set ∧ subscription.listener ∈ set
  used : ∀ entry ∈ s.hub.listeners, s.Listened entry.1
  members : ∀ (k : ℕ) (set : List ℕ) (listener : ℕ), s.sets[k]? = some set → listener ∈ set →
    ∃ subscription ∈ s.subscriptions, subscription.called = false ∧ subscription.set = k
      ∧ subscription.listener = listener

/-- A topic has one set. -/
theorem Registered.set_unique (h : s.Registered) {topic : String} {k k' : ℕ}
    (hk : (topic, k) ∈ s.hub.listeners) (hk' : (topic, k') ∈ s.hub.listeners) :
  k = k'
  := by
  have heq := List.inj_on_of_nodup_map h.topics hk hk' rfl
  exact congrArg Prod.snd heq

/-- A set has one topic. -/
theorem Registered.topic_unique (h : s.Registered) {topic topic' : String} {k : ℕ}
    (hk : (topic, k) ∈ s.hub.listeners) (hk' : (topic', k) ∈ s.hub.listeners) :
  topic = topic'
  := by
  have heq := List.inj_on_of_nodup_map h.numbers hk hk' rfl
  exact congrArg Prod.fst heq

/-- The topics with sets are those that are listened to. -/
theorem Registered.mem_topics_iff (h : s.Registered) (topic : String) :
  topic ∈ s.hub.listeners.map Prod.fst ↔ s.Listened topic
  := by
  constructor
  · intro hmem
    obtain ⟨entry, hentry, rfl⟩ := List.mem_map.mp hmem
    apply h.used entry hentry
  · rintro ⟨subscription, hsubscription, rfl, hcalled⟩
    apply List.mem_map.mpr ⟨_, (h.standing subscription hsubscription hcalled).1, rfl⟩

/-- A subscription is added to the set of its topic, which may be new. -/
theorem Registered.add (h : s.Registered) {topic : String} {listener k : ℕ} {set' : List ℕ}
    (hfresh : ∀ subscription ∈ s.subscriptions, subscription.listener ≠ listener)
    (hsubscriptions : s'.subscriptions = s.subscriptions ++ [⟨topic, listener, k, false⟩])
    (htopics : (s'.hub.listeners.map Prod.fst).Nodup) (hnumbers : (s'.hub.listeners.map Prod.snd).Nodup)
    (hentry : (topic, k) ∈ s'.hub.listeners)
    (hentries : ∀ entry ∈ s'.hub.listeners, entry ∈ s.hub.listeners ∨ entry = (topic, k))
    (hsubset : s.hub.listeners ⊆ s'.hub.listeners) (hlength : s.sets.length ≤ s'.sets.length)
    (hset : s'.sets[k]? = some set') (hlistener : listener ∈ set')
    (hold : ∀ set, s.sets[k]? = some set → set ⊆ set')
    (hnew : ∀ other ∈ set', other = listener ∨ ∃ set, s.sets[k]? = some set ∧ other ∈ set)
    (hothers : ∀ j, j ≠ k → s'.sets[j]? = s.sets[j]?) :
  s'.Registered
  := by
  have hadded : ⟨topic, listener, k, false⟩ ∈ s'.subscriptions := by
    rw [hsubscriptions]
    apply List.mem_append_right _ (List.mem_singleton_self _)
  have hkept : s.subscriptions ⊆ s'.subscriptions := by
    rw [hsubscriptions]
    apply List.subset_append_left
  constructor
  · apply htopics
  · apply hnumbers
  · intro entry hmem
    rcases hentries entry hmem with hmem | rfl
    · apply Nat.lt_of_lt_of_le (h.bound entry hmem) hlength
    · obtain ⟨hlt, -⟩ := List.getElem?_eq_some_iff.mp hset
      apply hlt
  · rw [hsubscriptions, List.map_append]
    apply List.nodup_append.mpr ⟨h.listeners, List.nodup_singleton _, _⟩
    rintro other hother _ hlast rfl
    obtain ⟨subscription, hsubscription, heq⟩ := List.mem_map.mp hother
    apply hfresh subscription hsubscription
    apply heq.trans (List.mem_singleton.mp hlast)
  · intro subscription hsubscription hcalled
    rw [hsubscriptions] at hsubscription
    rcases List.mem_append.mp hsubscription with hsubscription | hlast
    · obtain ⟨hmem, set, hset', hin⟩ := h.standing subscription hsubscription hcalled
      constructor
      · apply hsubset hmem
      · by_cases hk : subscription.set = k
        · use set'
          rw [hk] at hset' ⊢
          exact ⟨hset, hold set hset' hin⟩
        · use set
          rw [hothers _ hk]
          exact ⟨hset', hin⟩
    · obtain rfl := List.mem_singleton.mp hlast
      exact ⟨hentry, set', hset, hlistener⟩
  · intro entry hmem
    rcases hentries entry hmem with hmem | rfl
    · obtain ⟨subscription, hsubscription, hrest⟩ := h.used entry hmem
      exact ⟨subscription, hkept hsubscription, hrest⟩
    · exact ⟨_, hadded, rfl, rfl⟩
  · intro j set other hj hother
    by_cases hk : j = k
    · subst hk
      obtain rfl := Option.some.inj (hset.symm.trans hj)
      rcases hnew other hother with rfl | ⟨set, hset', hin⟩
      · exact ⟨_, hadded, rfl, rfl, rfl⟩
      · obtain ⟨subscription, hsubscription, hrest⟩ := h.members j set other hset' hin
        exact ⟨subscription, hkept hsubscription, hrest⟩
    · rw [hothers j hk] at hj
      obtain ⟨subscription, hsubscription, hrest⟩ := h.members j set other hj hother
      exact ⟨subscription, hkept hsubscription, hrest⟩

/-- What is registered does not depend on the sockets. -/
theorem Registered.congr (h : s.Registered) (hlisteners : s'.hub.listeners = s.hub.listeners)
    (hsets : s'.sets = s.sets) (hsubscriptions : s'.subscriptions = s.subscriptions) :
  s'.Registered
  := by
  obtain ⟨htopics, hnumbers, hbound, hdistinct, hstanding, hused, hmembers⟩ := h
  constructor
  · rw [hlisteners]
    apply htopics
  · rw [hlisteners]
    apply hnumbers
  · rw [hlisteners, hsets]
    apply hbound
  · rw [hsubscriptions]
    apply hdistinct
  · rw [hsubscriptions, hlisteners, hsets]
    apply hstanding
  · rw [hlisteners]
    simp only [Listened, hsubscriptions]
    apply hused
  · rw [hsets, hsubscriptions]
    apply hmembers

/-- What is registered does not depend on what is on its way. -/
theorem Registered.of_silent (h : s.Registered) (hsilent : s'.silent = s.silent) :
  s'.Registered
  := by
  apply h.congr
  · rw [hub_eq_of_silent hsilent]
  · have heq := congrArg Page.sets hsilent
    apply heq
  · have heq := congrArg Page.subscriptions hsilent
    apply heq

/-- A listener is in the set that it is added to. -/
theorem mem_addListener {listener other : ℕ} {set : List ℕ} :
  other ∈ addListener listener set ↔ other ∈ set ∨ other = listener
  := by
  rw [addListener]
  split
  · rename_i hmem
    constructor
    · apply Or.inl
    · rintro (h | rfl)
      · apply h
      · apply hmem
  · rw [List.mem_append, List.mem_singleton]

/-- The number of the set that a topic has. -/
theorem mem_listeners_of_lookup {topic : String} {k : ℕ} (h : s.hub.listeners.lookup topic = some k) :
  (topic, k) ∈ s.hub.listeners
  := by
  obtain ⟨before, after, hsplit, -⟩ := List.lookup_eq_some_iff.mp h
  rw [hsplit]
  apply List.mem_append_right _ List.mem_cons_self

/-- A topic that has no set. -/
theorem notMem_listeners_of_lookup {topic : String} (h : s.hub.listeners.lookup topic = none) :
  topic ∉ s.hub.listeners.map Prod.fst
  := by
  intro hmem
  obtain ⟨entry, hentry, rfl⟩ := List.mem_map.mp hmem
  have hne := List.lookup_eq_none_iff.mp h entry hentry
  rw [bne_self_eq_false] at hne
  cases hne

/-- The page after the first subscription to a topic, but for the message to the server. -/
def register (topic : String) (listener : ℕ) (s : Page) : Page :=
  { s with
    hub := { s.hub with listeners := s.hub.listeners ++ [(topic, s.sets.length)] }
    sets := (s.sets ++ [[]]).modify s.sets.length (addListener listener)
    subscriptions := s.subscriptions ++ [⟨topic, listener, s.sets.length, false⟩] }

/-- The page after a subscription to a topic that has listeners. -/
def join (topic : String) (listener k : ℕ) (s : Page) : Page :=
  { s with
    sets := s.sets.modify k (addListener listener)
    subscriptions := s.subscriptions ++ [⟨topic, listener, k, false⟩] }

/-- The two ways to subscribe. -/
theorem subscribe_cases (topic : String) (listener : ℕ) (s : Page) :
  (∃ k, s.hub.listeners.lookup topic = some k ∧ s.subscribe topic listener = s.join topic listener k)
    ∨ (s.hub.listeners.lookup topic = none
      ∧ s.subscribe topic listener = (s.register topic listener).send (.subscribe topic))
  := by
  cases hlookup : s.hub.listeners.lookup topic with
  | some k =>
      left
      use k, rfl
      simp only [subscribe, listenersOf, hlookup]
      rfl
  | none =>
      right
      constructor
      · rfl
      · simp only [subscribe, listenersOf, hlookup]
        rw [send, send]
        cases hsocket : s.hub.socket with
        | none => simp [register, hsocket]
        | some i => simp [register, hsocket]

/-- A component subscribes with a listener of its own. -/
theorem Registered.subscribe (h : s.Registered) {topic : String} {listener : ℕ}
    (hfresh : ∀ subscription ∈ s.subscriptions, subscription.listener ≠ listener) :
  (s.subscribe topic listener).Registered
  := by
  rcases subscribe_cases topic listener s with ⟨k, hlookup, heq⟩ | ⟨hlookup, heq⟩
  · rw [heq]
    have hentry := mem_listeners_of_lookup hlookup
    have hset := List.getElem?_eq_getElem (h.bound _ hentry)
    apply h.add hfresh
    · rfl
    · apply h.topics
    · apply h.numbers
    · apply hentry
    · exact fun _ => Or.inl
    · exact fun _ => id
    · apply Nat.le_of_eq
      apply (List.length_modify _ _ _).symm
    · change (s.sets.modify k _)[k]? = _
      rw [List.getElem?_modify_eq, hset]
      rfl
    · apply mem_addListener.mpr (Or.inr rfl)
    · intro set hset' other hother
      obtain rfl := Option.some.inj (hset.symm.trans hset')
      apply mem_addListener.mpr (Or.inl hother)
    · intro other hother
      rcases mem_addListener.mp hother with hother | rfl
      · right
        exact ⟨_, hset, hother⟩
      · left
        rfl
    · intro j hj
      apply List.getElem?_modify_ne _ _ (Ne.symm hj)
  · rw [heq]
    apply Registered.of_silent _ (silent_send _ _)
    have hlast : (s.sets ++ [[]])[s.sets.length]? = some [] := List.getElem?_concat_length
    have htopic := notMem_listeners_of_lookup hlookup
    apply h.add hfresh
    · rfl
    · change ((s.hub.listeners ++ [(topic, s.sets.length)]).map Prod.fst).Nodup
      rw [List.map_append]
      apply List.nodup_append.mpr ⟨h.topics, List.nodup_singleton _, _⟩
      rintro other hother _ hnew rfl
      obtain rfl : other = topic := List.mem_singleton.mp hnew
      apply htopic hother
    · change ((s.hub.listeners ++ [(topic, s.sets.length)]).map Prod.snd).Nodup
      rw [List.map_append]
      apply List.nodup_append.mpr ⟨h.numbers, List.nodup_singleton _, _⟩
      rintro other hother _ hnew rfl
      obtain rfl : other = s.sets.length := List.mem_singleton.mp hnew
      obtain ⟨entry, hentry, heq⟩ := List.mem_map.mp hother
      apply absurd heq (Nat.ne_of_lt (h.bound entry hentry))
    · apply List.mem_append_right _ (List.mem_singleton_self _)
    · intro entry hentry
      rcases List.mem_append.mp hentry with hentry | hentry
      · left
        apply hentry
      · right
        apply List.mem_singleton.mp hentry
    · apply List.subset_append_left
    · change s.sets.length ≤ ((s.sets ++ [[]]).modify s.sets.length _).length
      rw [List.length_modify, List.length_append]
      apply Nat.le_add_right
    · change ((s.sets ++ [[]]).modify s.sets.length _)[s.sets.length]? = _
      rw [List.getElem?_modify_eq, hlast]
      rfl
    · apply mem_addListener.mpr (Or.inr rfl)
    · intro set hset
      rw [List.getElem?_eq_none (Nat.le_refl _)] at hset
      cases hset
    · intro other hother
      rcases mem_addListener.mp hother with ⟨⟨⟩⟩ | rfl
      left
      rfl
    · intro j hj
      apply (List.getElem?_modify_ne _ _ (Ne.symm hj)).trans
      by_cases hlt : j < s.sets.length
      · apply List.getElem?_append_left hlt
      · have hlength : (s.sets ++ [[]]).length ≤ j := by
          rw [List.length_append, List.length_singleton]
          omega
        rw [List.getElem?_eq_none hlength, List.getElem?_eq_none (by omega)]

/-! ### The end of a subscription -/

/-- What remains when a subscription is ended. -/
theorem mem_modify_called {subscriptions : List Subscription} {k : ℕ} {ended : Subscription}
    (hnodup : (subscriptions.map Subscription.listener).Nodup) (hk : subscriptions[k]? = some ended)
    {subscription : Subscription} :
  (subscription ∈ subscriptions.modify k (fun subscription => { subscription with called := true })
      ∧ subscription.called = false)
    ↔ subscription ∈ subscriptions ∧ subscription.called = false
      ∧ subscription.listener ≠ ended.listener
  := by
  constructor
  · rintro ⟨hmem, hcalled⟩
    obtain ⟨j, hj⟩ := List.getElem?_of_mem hmem
    rw [List.getElem?_modify] at hj
    obtain ⟨old, hold, heq⟩ := Option.map_eq_some_iff.mp hj
    split at heq
    · rw [← heq] at hcalled
      cases hcalled
    · rename_i hkj
      obtain rfl : old = subscription := heq
      refine ⟨List.mem_of_getElem? hold, hcalled, ?_⟩
      intro hsame
      apply hkj
      apply (List.getElem?_inj _ hnodup).mp
      · rw [List.getElem?_map, List.getElem?_map, hk, hold, Option.map_some, Option.map_some, hsame]
      · obtain ⟨hlt, -⟩ := List.getElem?_eq_some_iff.mp hk
        rw [List.length_map]
        apply hlt
  · rintro ⟨hmem, hcalled, hne⟩
    constructor
    · obtain ⟨j, hj⟩ := List.getElem?_of_mem hmem
      have hkj : k ≠ j := by
        rintro rfl
        apply hne
        rw [Option.some.inj (hj.symm.trans hk)]
      apply List.mem_of_getElem? ((List.getElem?_modify_ne _ _ hkj).trans hj)
    · apply hcalled

/-- The page after a listener left its set. -/
def leave (k : ℕ) (subscription : Subscription) (s : Page) : Page :=
  { s with
    sets := s.sets.modify subscription.set fun set =>
      set.filter fun listener => listener ≠ subscription.listener
    subscriptions := s.subscriptions.modify k fun subscription => { subscription with called := true } }

/-- The page without the set of a topic. -/
def forget (topic : String) (s : Page) : Page :=
  { s with
    hub := { s.hub with listeners := s.hub.listeners.filter fun entry => entry.1 ≠ topic } }

/-- The two ways to end a subscription. -/
theorem unsubscribe_cases (k : ℕ) (subscription : Subscription) (s : Page) :
  ((s.leave k subscription).sets[subscription.set]? = some []
      ∧ s.unsubscribe k subscription
        = ((s.leave k subscription).forget subscription.topic).send (.unsubscribe subscription.topic))
    ∨ ((s.leave k subscription).sets[subscription.set]? ≠ some []
      ∧ s.unsubscribe k subscription = s.leave k subscription)
  := by
  by_cases hempty : (s.leave k subscription).sets[subscription.set]? = some []
  · left
    exact ⟨hempty, if_pos hempty⟩
  · right
    exact ⟨hempty, if_neg hempty⟩

/-- The sets when a listener left one. -/
theorem getElem?_sets_leave (k : ℕ) (subscription : Subscription) (s : Page) (j : ℕ) :
  (s.leave k subscription).sets[j]? = (s.sets[j]?).map fun set =>
    if subscription.set = j then set.filter fun listener => listener ≠ subscription.listener else set
  := by
  apply (List.getElem?_modify _ _ _ _).trans
  rfl

section

variable {k : ℕ} {ended : Subscription}

/-- The listeners of the subscriptions are different when one is ended. -/
theorem Registered.listeners_leave (h : s.Registered) (k : ℕ) (ended : Subscription) :
  ((s.leave k ended).subscriptions.map Subscription.listener).Nodup
  := by
  have hmap : (s.leave k ended).subscriptions.map Subscription.listener
      = s.subscriptions.map Subscription.listener := by
    apply List.ext_getElem?
    intro j
    change ((s.subscriptions.modify k _).map _)[j]? = _
    rw [List.getElem?_map, List.getElem?_map, List.getElem?_modify]
    cases s.subscriptions[j]? with
    | none => rfl
    | some subscription =>
        split
        · rfl
        · rfl
  rw [hmap]
  apply h.listeners

/-- A subscription that was not ended has its listener where it was. -/
theorem Registered.standing_leave (h : s.Registered) (hk : s.subscriptions[k]? = some ended)
    {subscription : Subscription} (hmem : subscription ∈ (s.leave k ended).subscriptions)
    (hcalled : subscription.called = false) :
  (subscription.topic, subscription.set) ∈ s.hub.listeners
    ∧ ∃ set, (s.leave k ended).sets[subscription.set]? = some set ∧ subscription.listener ∈ set
  := by
  obtain ⟨hold, -, hne⟩ := (mem_modify_called h.listeners hk).mp ⟨hmem, hcalled⟩
  obtain ⟨hentry, set, hset, hin⟩ := h.standing subscription hold hcalled
  constructor
  · apply hentry
  · rw [getElem?_sets_leave, hset]
    refine ⟨_, rfl, ?_⟩
    split
    · apply List.mem_filter.mpr ⟨hin, _⟩
      rw [decide_eq_true_iff]
      apply hne
    · apply hin

/-- A listener that is in a set still has a subscription that was not ended. -/
theorem Registered.members_leave (h : s.Registered) (hk : s.subscriptions[k]? = some ended) {j : ℕ}
    {set : List ℕ} {listener : ℕ}
    (hset : (s.leave k ended).sets[j]? = some set) (hin : listener ∈ set) :
  ∃ subscription ∈ (s.leave k ended).subscriptions, subscription.called = false
    ∧ subscription.set = j ∧ subscription.listener = listener
  := by
  rw [getElem?_sets_leave] at hset
  obtain ⟨old, hold, rfl⟩ := Option.map_eq_some_iff.mp hset
  have hkeep : ∀ subscription ∈ s.subscriptions, subscription.called = false →
      subscription.listener ≠ ended.listener → subscription ∈ (s.leave k ended).subscriptions := by
    intro subscription hmem hnot hne
    apply ((mem_modify_called h.listeners hk).mpr ⟨hmem, hnot, hne⟩).1
  split at hin
  · obtain ⟨hin, hne⟩ := List.mem_filter.mp hin
    obtain ⟨subscription, hmem, hnot, hj, rfl⟩ := h.members j old listener hold hin
    exact ⟨subscription, hkeep subscription hmem hnot (of_decide_eq_true hne), hnot, hj, rfl⟩
  · rename_i hj
    obtain ⟨subscription, hmem, hnot, rfl, rfl⟩ := h.members j old listener hold hin
    refine ⟨subscription, hkeep subscription hmem hnot ?_, hnot, rfl, rfl⟩
    intro hsame
    apply hj
    have hended := List.mem_of_getElem? hk
    rw [List.inj_on_of_nodup_map h.listeners hmem hended hsame]

/-- A topic keeps a listener unless the last one left. -/
theorem Registered.used_leave (h : s.Registered) (hk : s.subscriptions[k]? = some ended)
    {entry : String × ℕ} (hentry : entry ∈ s.hub.listeners) (hne : entry.1 ≠ ended.topic) :
  (s.leave k ended).Listened entry.1
  := by
  obtain ⟨subscription, hmem, htopic, hcalled⟩ := h.used entry hentry
  have hremains : subscription ∈ (s.leave k ended).subscriptions := by
    apply ((mem_modify_called h.listeners hk).mpr ⟨hmem, hcalled, _⟩).1
    intro hsame
    apply hne
    have hended := List.mem_of_getElem? hk
    rw [← htopic, List.inj_on_of_nodup_map h.listeners hmem hended hsame]
  exact ⟨subscription, hremains, htopic, hcalled⟩

/-- Numbers of sets remain in bounds. -/
theorem Registered.bound_leave (h : s.Registered) (k : ℕ) (ended : Subscription) {entry : String × ℕ}
    (hentry : entry ∈ s.hub.listeners) :
  entry.2 < (s.leave k ended).sets.length
  := by
  change entry.2 < (s.sets.modify ended.set _).length
  rw [List.length_modify]
  apply h.bound entry hentry

/-- A listener leaves, and others stay in its set. -/
theorem Registered.leave (h : s.Registered) (hk : s.subscriptions[k]? = some ended)
    (hcalled : ended.called = false) (hleft : (s.leave k ended).sets[ended.set]? ≠ some []) :
  (s.leave k ended).Registered
  := by
  have hended := List.mem_of_getElem? hk
  obtain ⟨hendedEntry, set, hset, -⟩ := h.standing ended hended hcalled
  constructor
  · apply h.topics
  · apply h.numbers
  · intro entry hentry
    apply h.bound_leave k ended hentry
  · apply h.listeners_leave k ended
  · intro subscription hmem hnot
    apply h.standing_leave hk hmem hnot
  · intro entry hentry
    by_cases htopic : entry.1 = ended.topic
    · have hnew : (s.leave k ended).sets[ended.set]?
          = some (set.filter fun listener => listener ≠ ended.listener) := by
        rw [getElem?_sets_leave, hset, Option.map_some, if_pos rfl]
      cases hfilter : set.filter fun listener => listener ≠ ended.listener with
      | nil =>
          rw [hfilter] at hnew
          apply absurd hnew hleft
      | cons other others =>
          rw [hfilter] at hnew
          obtain ⟨subscription, hmem, hnot, hsame, -⟩ :=
            h.members_leave hk hnew List.mem_cons_self
          obtain ⟨hother, -⟩ := h.standing_leave hk hmem hnot
          rw [hsame] at hother
          exact ⟨subscription, hmem, (h.topic_unique hother hendedEntry).trans htopic.symm, hnot⟩
    · apply h.used_leave hk hentry htopic
  · intro j set listener hj hin
    apply h.members_leave hk hj hin

/-- The last listener of a topic leaves. -/
theorem Registered.forget (h : s.Registered) (hk : s.subscriptions[k]? = some ended)
    (hcalled : ended.called = false) (hleft : (s.leave k ended).sets[ended.set]? = some []) :
  ((s.leave k ended).forget ended.topic).Registered
  := by
  have hended := List.mem_of_getElem? hk
  obtain ⟨hendedEntry, -⟩ := h.standing ended hended hcalled
  constructor
  · apply List.Nodup.sublist _ h.topics
    apply List.Sublist.map
    apply List.filter_sublist
  · apply List.Nodup.sublist _ h.numbers
    apply List.Sublist.map
    apply List.filter_sublist
  · intro entry hentry
    apply h.bound_leave k ended (List.mem_filter.mp hentry).1
  · apply h.listeners_leave k ended
  · intro subscription hmem hnot
    obtain ⟨hentry, set, hset, hin⟩ := h.standing_leave hk hmem hnot
    constructor
    · apply List.mem_filter.mpr ⟨hentry, _⟩
      rw [decide_eq_true_iff]
      intro htopic
      have htopic : subscription.topic = ended.topic := htopic
      rw [htopic] at hentry
      rw [h.set_unique hentry hendedEntry, hleft] at hset
      cases hset
      cases hin
    · exact ⟨set, hset, hin⟩
  · intro entry hentry
    obtain ⟨hold, hne⟩ := List.mem_filter.mp hentry
    apply h.used_leave hk hold (of_decide_eq_true hne)
  · intro j set listener hj hin
    apply h.members_leave hk hj hin

/-- A subscription is ended once. -/
theorem Registered.unsubscribe (h : s.Registered) (hk : s.subscriptions[k]? = some ended)
    (hcalled : ended.called = false) :
  (s.unsubscribe k ended).Registered
  := by
  rcases unsubscribe_cases k ended s with ⟨hleft, heq⟩ | ⟨hleft, heq⟩
  · rw [heq]
    apply (h.forget hk hcalled hleft).of_silent (silent_send _ _)
  · rw [heq]
    apply h.leave hk hcalled hleft

end

/-! ### The topics of the connection -/

/-- What the topics of a connection are going to be, once it has read what is on its way. -/
def settled (socket : Socket) : List String :=
  socket.toServer.foldl topicsAfter socket.endpoint.topics

/-- A connection that is open is going to have the topics that have listeners, and one that is not yet
open has none. -/
structure Agreement (topics : List String) (socket : Socket) : Prop where
  connecting : socket.readyState = .connecting → socket.toServer = [] ∧ socket.endpoint.topics = []
  opened : socket.readyState = .opened → socket.lost = false →
    ∀ topic, topic ∈ settled socket ↔ topic ∈ topics

/-- The topics of the hub. -/
def topics (s : Page) : List String :=
  s.hub.listeners.map Prod.fst

/-- All connections agree with the hub. -/
def Agrees (s : Page) : Prop :=
  ∀ (i : ℕ) (socket : Socket), s.sockets[i]? = some socket → Agreement s.topics socket

/-- A connection that was not opened. -/
theorem agreement_of_not_opened {topics : List String} {socket : Socket}
    (h : socket.readyState.isLive = false) :
  Agreement topics socket
  := by
  constructor
  · intro hconnecting
    rw [hconnecting] at h
    cases h
  · intro hopened
    rw [hopened] at h
    cases h

/-- What the server does leaves what the topics are going to be. -/
theorem Agreement.serverStep {topics : List String} {socket socket' : Socket} {label : ServerLabel}
    (h : Agreement topics socket) (hstep : socket.serverStep label = some socket') :
  Agreement topics socket'
  := by
  have hsame : ∀ new : Socket, new.readyState = socket.readyState → new.toServer = socket.toServer →
      new.endpoint.topics = socket.endpoint.topics → (new.lost = false → socket.lost = false) →
      Agreement topics new := by
    intro new hstate hmessages htopics hlost
    constructor
    · rw [hstate, hmessages, htopics]
      apply h.connecting
    · rw [hstate, settled, hmessages, htopics]
      intro hopened hnew
      apply h.opened hopened (hlost hnew)
  cases label with
  | lose =>
      cases hstep
      refine hsame _ rfl rfl rfl ?_
      rintro ⟨⟩
  | receive =>
      simp only [Socket.serverStep] at hstep
      split at hstep
      · cases hstep
      · rename_i message rest hmessages
        obtain ⟨-, hstep⟩ := Option.ite_none_left_eq_some.mp hstep
        cases hstep
        constructor
        · intro hconnecting
          rw [(h.connecting hconnecting).1] at hmessages
          cases hmessages
        · intro hopened hlost
          have hsettled := h.opened hopened hlost
          rw [settled, hmessages, List.foldl_cons] at hsettled
          rw [settled, WsEndpoint.topics_receive]
          apply hsettled
  | disconnect =>
      obtain ⟨-, hstep⟩ := Option.ite_none_right_eq_some.mp hstep
      cases hstep
      exact hsame _ rfl rfl rfl id
  | begin k =>
      obtain ⟨-, hstep⟩ := Option.ite_none_right_eq_some.mp hstep
      cases hstep
      exact hsame _ rfl rfl rfl id
  | send k =>
      simp only [Socket.serverStep] at hstep
      split at hstep
      · cases hstep
        exact hsame _ rfl rfl rfl id
      · cases hstep
  | fail k =>
      simp only [Socket.serverStep] at hstep
      split at hstep
      · obtain ⟨-, hstep⟩ := Option.ite_none_right_eq_some.mp hstep
        cases hstep
        exact hsame _ rfl rfl rfl id
      · cases hstep
  | finish k =>
      obtain ⟨-, hstep⟩ := Option.ite_none_right_eq_some.mp hstep
      cases hstep
      exact hsame _ rfl rfl rfl id

/-- The sockets when the hub sends. -/
theorem getElem?_sockets_send (message : HubMessage) (s : Page) (j : ℕ) :
  (s.send message).sockets[j]?
    = s.sockets[j]?.map fun socket =>
      if s.hub.socket = some j then socket.send message else socket
  := by
  rw [send]
  split
  · rename_i hsocket
    rw [hsocket]
    simp
  · rename_i i hsocket
    rw [hsocket]
    apply (List.getElem?_modify _ _ _ _).trans
    simp only [Option.some.injEq]
    rfl

/-- The sockets when the hub sends several subscriptions. -/
theorem getElem?_sockets_foldl_send (topics : List String) (s : Page) (j : ℕ) :
  (topics.foldl (fun s topic => s.send (.subscribe topic)) s).sockets[j]?
    = s.sockets[j]?.map fun socket =>
      if s.hub.socket = some j then
        topics.foldl (fun socket topic => socket.send (.subscribe topic)) socket
      else socket
  := by
  induction topics generalizing s with
  | nil => simp
  | cons topic topics ih =>
      rw [List.foldl_cons, ih, getElem?_sockets_send, Option.map_map,
        hub_eq_of_silent (silent_send _ _)]
      congr 1
      funext socket
      by_cases hsocket : s.hub.socket = some j
      · simp [hsocket]
      · simp [hsocket]

/-- An open socket sends several subscriptions. -/
theorem foldl_send_of_opened {topics : List String} {socket : Socket} (h : socket.readyState = .opened) :
  topics.foldl (fun socket topic => socket.send (.subscribe topic)) socket
    = { socket with toServer := socket.toServer ++ topics.map .subscribe }
  := by
  induction topics generalizing socket with
  | nil => simp
  | cons topic topics ih =>
      rw [List.foldl_cons, Socket.send, if_pos h, ih (by exact h)]
      simp

/-- The topics after a message are those after it with the same topics before. -/
theorem mem_topicsAfter_congr {topics topics' : List String} (message : HubMessage)
    (h : ∀ topic, topic ∈ topics ↔ topic ∈ topics') (topic : String) :
  topic ∈ topicsAfter topics message ↔ topic ∈ topicsAfter topics' message
  := by
  cases message with
  | subscribe new => rw [mem_topicsAfter_subscribe, mem_topicsAfter_subscribe, h]
  | unsubscribe old => rw [mem_topicsAfter_unsubscribe, mem_topicsAfter_unsubscribe, h]

/-- A socket that is not the hub's is not live. -/
theorem Current.not_live_of_ne (h : s.Current) {i : ℕ} {socket : Socket}
    (hsocket : s.sockets[i]? = some socket) (hne : s.hub.socket ≠ some i) :
  socket.readyState.isLive = false
  := by
  apply eq_false_of_ne_true
  intro hlive
  apply hne
  apply h i socket.readyState _ hlive
  rw [stateOf, hsocket]
  rfl

/-- The hub changes a topic, and tells its socket. -/
theorem Agrees.send (h : s.Agrees) (hcurrent : s.Current) {message : HubMessage}
    (hsocket : s'.hub.socket = s.hub.socket) (hsockets : s'.sockets = s.sockets)
    (htopics : ∀ topic, topic ∈ s'.topics ↔ topic ∈ topicsAfter s.topics message) :
  (s'.send message).Agrees
  := by
  have hhub : (s'.send message).topics = s'.topics := by
    rw [topics, hub_eq_of_silent (silent_send _ _)]
    rfl
  intro j socket' hj
  rw [getElem?_sockets_send, hsocket, hsockets] at hj
  obtain ⟨socket, hold, heq⟩ := Option.map_eq_some_iff.mp hj
  rw [hhub]
  split at heq
  · rw [← heq, Socket.send]
    split
    · rename_i hopened
      constructor
      · intro hconnecting
        rw [show socket.readyState = .connecting from hconnecting] at hopened
        cases hopened
      · intro _ hlost topic
        rw [htopics, settled]
        change topic ∈ (socket.toServer ++ [message]).foldl topicsAfter socket.endpoint.topics ↔ _
        rw [List.foldl_append]
        apply mem_topicsAfter_congr message ((h j socket hold).opened hopened hlost)
    · rename_i hopened
      constructor
      · apply (h j socket hold).connecting
      · intro hnow
        apply absurd hnow hopened
  · rename_i hne
    rw [← heq]
    apply agreement_of_not_opened (hcurrent.not_live_of_ne hold hne)

/-- The topics remain, and so do the sockets. -/
theorem Agrees.congr (h : s.Agrees) (hsockets : s'.sockets = s.sockets) (htopics : s'.topics = s.topics) :
  s'.Agrees
  := by
  intro i socket hsocket
  rw [htopics]
  rw [hsockets] at hsocket
  apply h i socket hsocket

/-- A socket is no longer live. -/
theorem Agrees.modify (h : s.Agrees) {i : ℕ} {g : Socket → Socket}
    (hg : ∀ socket, (g socket).readyState.isLive = false) (hsockets : s'.sockets = s.sockets.modify i g)
    (htopics : s'.topics = s.topics) :
  s'.Agrees
  := by
  intro j socket hsocket
  rw [hsockets, List.getElem?_modify] at hsocket
  obtain ⟨old, hold, heq⟩ := Option.map_eq_some_iff.mp hsocket
  rw [htopics]
  split at heq
  · rw [← heq]
    apply agreement_of_not_opened (hg old)
  · obtain rfl : old = socket := heq
    apply h j old hold

/-- The hub connects. -/
theorem Agrees.connect (h : s.Agrees) :
  s.connect.Agrees
  := by
  intro i socket hsocket
  change (s.sockets ++ [Socket.new])[i]? = some socket at hsocket
  rw [List.getElem?_append] at hsocket
  split at hsocket
  · apply h i socket hsocket
  · rw [List.getElem?_singleton] at hsocket
    obtain ⟨-, hsocket⟩ := Option.ite_none_right_eq_some.mp hsocket
    cases hsocket
    constructor
    · exact fun _ => ⟨rfl, rfl⟩
    · rintro ⟨⟩

/-- A socket opens, and names all topics. -/
theorem Agrees.onOpen (h : s.Agrees) (hcurrent : s.Current) {i : ℕ}
    (hconnecting : s.stateOf i = some .connecting) :
  (s.onOpen i).Agrees
  := by
  have htopics : (s.onOpen i).topics = s.topics := by
    rw [topics, hub_onOpen]
    rfl
  have hsocket : s.hub.socket = some i := hcurrent i .connecting hconnecting rfl
  have hget : ∀ j, (s.onOpen i).sockets[j]?
      = if i = j then (s.sockets[j]?).map fun socket =>
        { socket with
          readyState := .opened
          toServer := socket.toServer ++ s.topics.map .subscribe }
      else s.sockets[j]? := by
    intro j
    rw [Page.onOpen, getElem?_sockets_foldl_send]
    change ((s.sockets.modify i _)[j]?).map (fun socket => if s.hub.socket = some j then _ else socket) = _
    rw [hsocket, List.getElem?_modify]
    cases s.sockets[j]? with
    | none => simp
    | some socket =>
        by_cases hij : i = j
        · simp [hij, foldl_send_of_opened, topics]
        · simp [hij]
  intro j socket' hj
  rw [htopics]
  rw [hget] at hj
  split at hj
  · rename_i hij
    subst hij
    obtain ⟨socket, hold, rfl⟩ := Option.map_eq_some_iff.mp hj
    have hstate : socket.readyState = .connecting := by
      rw [stateOf, hold] at hconnecting
      apply Option.some.inj hconnecting
    obtain ⟨hmessages, hnone⟩ := (h i socket hold).connecting hstate
    constructor
    · rintro ⟨⟩
    · intro _ _ topic
      change topic ∈ (socket.toServer ++ s.topics.map HubMessage.subscribe).foldl topicsAfter
        socket.endpoint.topics ↔ _
      rw [hmessages, hnone, List.nil_append, mem_foldl_topicsAfter]
      simp
  · apply h j socket' hj

/-- The topics after a first subscription. -/
theorem mem_topics_register (topic : String) (listener : ℕ) (other : String) :
  other ∈ (s.register topic listener).topics ↔ other ∈ topicsAfter s.topics (.subscribe topic)
  := by
  change other ∈ (s.hub.listeners ++ [(topic, s.sets.length)]).map Prod.fst ↔ _
  rw [mem_topicsAfter_subscribe, List.map_append, List.mem_append]
  simp [topics]

/-- The topics after the last subscription ended. -/
theorem mem_topics_forget (topic other : String) :
  other ∈ (s.forget topic).topics ↔ other ∈ topicsAfter s.topics (.unsubscribe topic)
  := by
  change other ∈ (s.hub.listeners.filter fun entry => entry.1 ≠ topic).map Prod.fst ↔ _
  rw [mem_topicsAfter_unsubscribe, topics, List.mem_map, List.mem_map]
  constructor
  · rintro ⟨entry, hentry, rfl⟩
    obtain ⟨hmem, hne⟩ := List.mem_filter.mp hentry
    exact ⟨⟨entry, hmem, rfl⟩, of_decide_eq_true hne⟩
  · rintro ⟨⟨entry, hmem, rfl⟩, hne⟩
    use entry, List.mem_filter.mpr ⟨hmem, decide_eq_true hne⟩

/-- A component subscribes. -/
theorem Agrees.subscribe (h : s.Agrees) (hcurrent : s.Current) (topic : String) (listener : ℕ) :
  (s.subscribe topic listener).Agrees
  := by
  rcases subscribe_cases topic listener s with ⟨k, -, heq⟩ | ⟨-, heq⟩
  · rw [heq]
    exact h.congr rfl rfl
  · rw [heq]
    apply h.send hcurrent
    · rfl
    · rfl
    · apply mem_topics_register topic listener

/-- A subscription ends. -/
theorem Agrees.unsubscribe (h : s.Agrees) (hcurrent : s.Current) (k : ℕ) (ended : Subscription) :
  (s.unsubscribe k ended).Agrees
  := by
  rcases unsubscribe_cases k ended s with ⟨-, heq⟩ | ⟨-, heq⟩
  · rw [heq]
    apply h.send hcurrent
    · rfl
    · rfl
    · apply mem_topics_forget ended.topic
  · rw [heq]
    exact h.congr rfl rfl

/-! ### Runs -/

/-- No socket is connecting or open. -/
def NoneLive (s : Page) : Prop :=
  ∀ socket ∈ s.sockets, socket.readyState.isLive = false

instance (s : Page) : Decidable s.NoneLive :=
  inferInstanceAs (Decidable (∀ socket ∈ s.sockets, socket.readyState.isLive = false))

/-- The hub connects when it has no connection, each call of `subscribe` has a listener of its own, and
what it returned is called once. -/
def Orderly (s : Page) : PageLabel → Prop
  | .start => s.hub.running = false → s.NoneLive
  | .fire _ => s.NoneLive
  | .subscribe _ listener => ∀ subscription ∈ s.subscriptions, subscription.listener ≠ listener
  | .unsubscribe k => ∀ subscription ∈ s.subscriptions[k]?, subscription.called = false
  | _ => True

instance decidableOrderly (s : Page) : (label : PageLabel) → Decidable (s.Orderly label)
  | .start => inferInstanceAs (Decidable (s.hub.running = false → s.NoneLive))
  | .fire _ => inferInstanceAs (Decidable s.NoneLive)
  | .subscribe _ listener =>
      inferInstanceAs (Decidable (∀ subscription ∈ s.subscriptions, subscription.listener ≠ listener))
  | .unsubscribe k =>
      inferInstanceAs (Decidable (∀ subscription ∈ s.subscriptions[k]?, subscription.called = false))
  | .stop => isTrue trivial
  | .opened _ => isTrue trivial
  | .message _ => isTrue trivial
  | .error _ => isTrue trivial
  | .closed _ => isTrue trivial
  | .server _ _ => isTrue trivial
  | .publish _ => isTrue trivial

/-- The states of sockets none of which is live. -/
theorem NoneLive.not_live (h : s.NoneLive) {i : ℕ} {state : ReadyState}
    (hstate : s.stateOf i = some state) :
  state.isLive = false
  := by
  obtain ⟨socket, hsocket, rfl⟩ := Option.map_eq_some_iff.mp hstate
  apply h socket (List.mem_of_getElem? hsocket)

/-- What is true of a page whose hub has had one connection at a time. -/
structure Synced (s : Page) : Prop where
  current : s.Current
  deliveries : s.Deliveries
  registered : s.Registered
  agrees : s.Agrees

/-- The hub's socket remains its only live one. -/
theorem Current.step (h : s.Current) {label : PageLabel} (horderly : s.Orderly label)
    (hstep : machine.step s label = some s') :
  s'.Current
  := by
  cases label with
  | start =>
      cases hstep
      rw [Page.start]
      split
      · apply h
      · rename_i hrunning
        apply Current.connect
        intro i state hstate
        apply (horderly (eq_false_of_ne_true hrunning)).not_live hstate
  | stop =>
      cases hstep
      intro i state hstate hlive
      rw [h.not_live_stop hstate] at hlive
      cases hlive
  | subscribe topic listener =>
      cases hstep
      rcases subscribe_cases topic listener s with ⟨k, -, heq⟩ | ⟨-, heq⟩
      · rw [heq]
        exact h.congr rfl fun _ => rfl
      · rw [heq]
        apply h.congr
        · rw [hub_eq_of_silent (silent_send _ _)]
          rfl
        · apply stateOf_eq_of_silent (silent_send _ _)
  | unsubscribe k =>
      obtain ⟨ended, -, rfl⟩ := Option.map_eq_some_iff.mp hstep
      rcases unsubscribe_cases k ended s with ⟨-, heq⟩ | ⟨-, heq⟩
      · rw [heq]
        apply h.congr
        · rw [hub_eq_of_silent (silent_send _ _)]
          rfl
        · apply stateOf_eq_of_silent (silent_send _ _)
      · rw [heq]
        exact h.congr rfl fun _ => rfl
  | fire timer =>
      obtain ⟨-, hstep⟩ := Option.ite_none_right_eq_some.mp hstep
      cases hstep
      apply Current.connect
      intro i state hstate
      apply NoneLive.not_live horderly hstate
  | opened i =>
      obtain ⟨hconnecting, hstep⟩ := Option.ite_none_right_eq_some.mp hstep
      cases hstep
      apply h.onOpen hconnecting
  | message i =>
      simp only [machine] at hstep
      split at hstep
      · cases hstep
        exact h.congr rfl (stateOf_onMessage _ _ _)
      · cases hstep
  | error i =>
      obtain ⟨-, hstep⟩ := Option.ite_none_right_eq_some.mp hstep
      cases hstep
      apply h.close
  | closed i =>
      obtain ⟨-, hstep⟩ := Option.ite_none_right_eq_some.mp hstep
      cases hstep
      apply h.onClose
  | server i label =>
      obtain ⟨socket', hsocket', rfl⟩ := Option.map_eq_some_iff.mp hstep
      obtain ⟨socket, hsocket, hserver⟩ := Option.bind_eq_some_iff.mp hsocket'
      exact h.congr rfl (stateOf_set hsocket hserver)
  | publish topic =>
      cases hstep
      exact h.congr rfl (stateOf_publish s topic)

/-- The listeners of the page remain registered. -/
theorem Registered.step (h : s.Registered) {label : PageLabel} (horderly : s.Orderly label)
    (hstep : machine.step s label = some s') :
  s'.Registered
  := by
  cases label with
  | start =>
      cases hstep
      rw [Page.start]
      split
      · apply h
      · exact h.congr rfl rfl rfl
  | stop =>
      cases hstep
      rw [Page.stop]
      split
      · exact h.congr rfl rfl rfl
      · exact h.congr rfl rfl rfl
  | subscribe topic listener =>
      cases hstep
      apply h.subscribe horderly
  | unsubscribe k =>
      obtain ⟨ended, hk, rfl⟩ := Option.map_eq_some_iff.mp hstep
      apply h.unsubscribe hk (horderly ended hk)
  | fire timer =>
      obtain ⟨-, hstep⟩ := Option.ite_none_right_eq_some.mp hstep
      cases hstep
      exact h.congr rfl rfl rfl
  | opened i =>
      obtain ⟨-, hstep⟩ := Option.ite_none_right_eq_some.mp hstep
      cases hstep
      apply Registered.of_silent _ (silent_onOpen s i)
      exact h.congr rfl rfl rfl
  | message i =>
      simp only [machine] at hstep
      split at hstep
      · cases hstep
        exact h.congr rfl rfl rfl
      · cases hstep
  | error i =>
      obtain ⟨-, hstep⟩ := Option.ite_none_right_eq_some.mp hstep
      cases hstep
      exact h.congr rfl rfl rfl
  | closed i =>
      obtain ⟨-, hstep⟩ := Option.ite_none_right_eq_some.mp hstep
      cases hstep
      rw [Page.onClose]
      dsimp only
      split
      · split
        · exact h.congr rfl rfl rfl
        · exact h.congr rfl rfl rfl
      · split
        · exact h.congr rfl rfl rfl
        · exact h.congr rfl rfl rfl
  | server i label =>
      obtain ⟨socket', -, rfl⟩ := Option.map_eq_some_iff.mp hstep
      exact h.congr rfl rfl rfl
  | publish topic =>
      cases hstep
      exact h.congr rfl rfl rfl

/-- The connections go on agreeing with the hub. -/
theorem Agrees.step (h : s.Agrees) (hcurrent : s.Current) {label : PageLabel}
    (hstep : machine.step s label = some s') :
  s'.Agrees
  := by
  cases label with
  | start =>
      cases hstep
      rw [Page.start]
      split
      · apply h
      · apply Agrees.connect
        exact h.congr rfl rfl
  | stop =>
      cases hstep
      rw [Page.stop]
      split
      · exact h.congr rfl rfl
      · exact h.modify (fun socket => isLive_close socket.readyState) rfl rfl
  | subscribe topic listener =>
      cases hstep
      apply h.subscribe hcurrent
  | unsubscribe k =>
      obtain ⟨ended, -, rfl⟩ := Option.map_eq_some_iff.mp hstep
      apply h.unsubscribe hcurrent
  | fire timer =>
      obtain ⟨-, hstep⟩ := Option.ite_none_right_eq_some.mp hstep
      cases hstep
      apply Agrees.connect
      exact h.congr rfl rfl
  | opened i =>
      obtain ⟨hconnecting, hstep⟩ := Option.ite_none_right_eq_some.mp hstep
      cases hstep
      apply h.onOpen hcurrent hconnecting
  | message i =>
      simp only [machine] at hstep
      split at hstep
      · cases hstep
        intro j socket hsocket
        change (s.sockets.modify i _)[j]? = some socket at hsocket
        rw [List.getElem?_modify] at hsocket
        obtain ⟨old, hold, heq⟩ := Option.map_eq_some_iff.mp hsocket
        split at heq
        · rw [← heq]
          exact ⟨(h j old hold).connecting, (h j old hold).opened⟩
        · rw [← show old = socket from heq]
          exact h j old hold
      · cases hstep
  | error i =>
      obtain ⟨-, hstep⟩ := Option.ite_none_right_eq_some.mp hstep
      cases hstep
      exact h.modify (fun socket => isLive_close socket.readyState) rfl rfl
  | closed i =>
      obtain ⟨-, hstep⟩ := Option.ite_none_right_eq_some.mp hstep
      cases hstep
      have hclosed : ∀ socket : Socket,
          ({ socket with readyState := .closed, lost := true } : Socket).readyState.isLive = false :=
        fun _ => rfl
      rw [Page.onClose]
      dsimp only
      split
      · split
        · exact h.modify hclosed rfl rfl
        · exact h.modify hclosed rfl rfl
      · split
        · exact h.modify hclosed rfl rfl
        · exact h.modify hclosed rfl rfl
  | server i label =>
      obtain ⟨socket', hsocket', rfl⟩ := Option.map_eq_some_iff.mp hstep
      obtain ⟨socket, hsocket, hserver⟩ := Option.bind_eq_some_iff.mp hsocket'
      intro j other hother
      by_cases hij : i = j
      · subst hij
        obtain ⟨hi, -⟩ := List.getElem?_eq_some_iff.mp hsocket
        change (s.sockets.set i socket')[i]? = some other at hother
        rw [List.getElem?_set_self hi, Option.some.injEq] at hother
        rw [← hother]
        apply (h i socket hsocket).serverStep hserver
      · change (s.sockets.set i socket')[j]? = some other at hother
        rw [List.getElem?_set_ne hij] at hother
        apply h j other hother
  | publish topic =>
      cases hstep
      intro j socket hsocket
      change (s.sockets.map _)[j]? = some socket at hsocket
      rw [List.getElem?_map] at hsocket
      obtain ⟨old, hold, rfl⟩ := Option.map_eq_some_iff.mp hsocket
      exact ⟨(h j old hold).connecting, (h j old hold).opened⟩

/-- The page, its connection and what is on its way agree after an orderly step. -/
theorem Synced.step (h : s.Synced) {label : PageLabel} (horderly : s.Orderly label)
    (hstep : machine.step s label = some s') :
  s'.Synced
  := by
  constructor
  · apply h.current.step horderly hstep
  · apply h.deliveries.step h.current hstep
  · apply h.registered.step horderly hstep
  · apply h.agrees.step h.current hstep

/-- A page that was loaded. -/
theorem synced_loaded :
  loaded.Synced
  := by
  constructor
  · rintro i state ⟨⟩
  · constructor
    · rintro i socket ⟨⟩
    · apply List.nodup_nil
    · rintro d ⟨⟩
    · rintro set ⟨⟩
  · constructor
    · apply List.nodup_nil
    · apply List.nodup_nil
    · rintro entry ⟨⟩
    · apply List.nodup_nil
    · rintro subscription ⟨⟩
    · rintro entry ⟨⟩
    · rintro k set listener ⟨⟩
  · rintro i socket ⟨⟩

/-- The connection forwards the topics that have listeners, and each of them by one task. -/
structure ForwardsListened (s : Page) (e : WsEndpoint) : Prop where
  forwards : ∀ topic, e.Forwards topic ↔ s.listening topic ≠ []
  listened : ∀ topic, s.listening topic ≠ [] ↔ s.Listened topic
  single : ∀ (k k' : ℕ) (task task' : ForwardTask), e.tasks[k]? = some task → e.tasks[k']? = some task' →
    task.stage.active = true → task'.stage.active = true → task.topic = task'.topic → k = k'

/-- A topic is listened to if its set has a listener. -/
theorem Registered.listening_iff (h : s.Registered) (topic : String) :
  s.listening topic ≠ [] ↔ s.Listened topic
  := by
  rw [listening]
  constructor
  · intro hne
    cases hset : (s.hub.listeners.lookup topic).bind fun set => s.sets[set]? with
    | none =>
        rw [hset] at hne
        apply absurd rfl hne
    | some set =>
        obtain ⟨k, hk, -⟩ := Option.bind_eq_some_iff.mp hset
        apply h.used _ (mem_listeners_of_lookup hk)
  · rintro ⟨subscription, hmem, rfl, hcalled⟩
    obtain ⟨hentry, set, hset, hin⟩ := h.standing subscription hmem hcalled
    cases hlookup : s.hub.listeners.lookup subscription.topic with
    | none =>
        apply absurd (List.mem_map.mpr ⟨_, hentry, rfl⟩) (notMem_listeners_of_lookup hlookup)
    | some k =>
        rw [← h.set_unique hentry (mem_listeners_of_lookup hlookup), Option.bind_some, hset]
        rintro rfl
        cases hin

/-- In every run in which the hub has one connection at a time, each listener is subscribed once and each
subscription ended at most once: once the messages of a connection that is open and was not lost have been
read, it forwards the topics that have listeners, each by one task. -/
theorem forwardsListened_of_run {labels : List PageLabel} {s : Page}
    (horderly : machine.Along Orderly loaded labels) (hrun : machine.run loaded labels = some s)
    {i : ℕ} {socket : Socket} (hsocket : s.sockets[i]? = some socket)
    (hopened : socket.readyState = .opened) (hlost : socket.lost = false)
    (hread : socket.toServer = []) :
  s.ForwardsListened socket.endpoint
  := by
  have hsynced : s.Synced := by
    apply Machine.run_invariant _ synced_loaded horderly hrun
    intro s label s' hs hlabel hstep
    apply hs.step hlabel hstep
  have hok := (hsynced.deliveries.sockets i socket hsocket).endpoint
  rw [hlost] at hok
  constructor
  · intro topic
    have hsettled := (hsynced.agrees i socket hsocket).opened hopened hlost topic
    rw [settled, hread, List.foldl_nil] at hsettled
    rw [hok.forwards_iff, hsettled, hsynced.registered.listening_iff]
    apply hsynced.registered.mem_topics_iff
  · apply hsynced.registered.listening_iff
  · intro k k' task task' hk hk' hactive hactive' htopic
    apply hok.unique_active hk hk' hactive hactive' htopic

/-- A component goes, and the connection is lost and made again before another comes. -/
def listensAgain : List PageLabel :=
  [.subscribe "monitor.sample" 0, .subscribe "job.progress" 1, .start, .opened 0, .server 0 .receive,
    .server 0 .receive, .unsubscribe 1, .closed 0, .fire 0, .opened 1, .subscribe "job.progress" 2,
    .subscribe "job.progress" 3, .unsubscribe 2, .server 1 .receive, .server 1 .receive]

theorem forwardsListened_listensAgain :
  ∃ s socket, machine.run loaded listensAgain = some s ∧ s.sockets[1]? = some socket
    ∧ socket.endpoint.topics = ["monitor.sample", "job.progress"] ∧ s.ForwardsListened socket.endpoint
  := by
  have hrun : (machine.run loaded listensAgain).any (fun s => s.sockets[1]?.any fun socket =>
      socket.readyState = .opened && socket.lost = false && socket.toServer = []
        && socket.endpoint.topics = ["monitor.sample", "job.progress"]) = true := by decide +kernel
  obtain ⟨s, hs, hany⟩ := (Option.any_eq_true _ _).mp hrun
  obtain ⟨socket, hsocket, hstate⟩ := (Option.any_eq_true _ _).mp hany
  simp only [Bool.and_eq_true, decide_eq_true_iff] at hstate
  obtain ⟨⟨⟨hopened, hlost⟩, hread⟩, htopics⟩ := hstate
  use s, socket, hs, hsocket, htopics
  apply forwardsListened_of_run _ hs hsocket hopened hlost hread
  decide +kernel

end Page
