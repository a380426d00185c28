import MemoryPressure.EventNumbers

/-!
# What a subscriber is served (`runtime.cpp`, `core.cpp`)

A subscription with any filter, in a session in which anything may happen to it.

- `Mailbox`: one subscriber by itself: its subscription and the events on their way
  to it. `Mailbox.Step` is all that ever happens to it, `Mailbox.Served` what holds
  of it ever after.
- `HasMailbox.step`: every turn of a session is such a step for each subscriber. Events
  get lost on their way only where the turn closes, clears or throws.
- `subscriber_served`: what a subscriber pops and has queued are, in order and
  without repetition, events its filter lets through of those published since it
  subscribed; between refreshes the rest was dropped and counted, if none was lost.

**Two layers.** A mailbox knows nothing of other subscribers, of the delivery loop or of
the runtime. Its steps are nine, and what they keep is proved once over them
(`Served.step`): `Served` compares the mailbox with the stream of events published for it,
by way of the notes of `bounded_queue`, and `Complete` is the stronger account where
nothing was lost. The delivery loop is then shown to move every mailbox by one of the nine
(`call`, `deliver`, `step`), and each session inherits the account by induction on its
turns (`served_run`).

**Order.** That nothing comes twice is not a fact about one mailbox but about the loop:
`Orderly` says that the batch in progress goes to each subscription once and is numbered
up to the event counter, so that the stream of a subscriber rises (`stream_rising`).

The subscription may be made in the middle of a delivery, in which case what is left of
the batch is served too. Only the events of refreshes are in the stream; user code that
pushes events of its own is not a turn of a session.
-/

namespace MemoryPressure

variable {F C : Type} [Double F]

/-! ## One subscriber by itself

`Mailbox.Step` is the abstract machine: `publish` puts a batch on its way, `offer` and
`pass` take its events off one at a time, `lose` is the rest of a batch whose delivery an
exception ended. Its consumer pops, clears, closes and sets its callback at any moment. -/

/-- A subscription and the events on their way to it. -/
structure Mailbox (C : Type) where
  sub : Subscription C
  coming : List PressureEvent

/-- The events pushed, in order. -/
def pushedEvents (notes : List QueueNote) : List PressureEvent :=
  notes.filterMap fun note => match note with
    | .pushed e _ _ => some e
    | _ => none

@[simp] theorem pushedEvents_append (notes more : List QueueNote) :
    pushedEvents (notes ++ more) = pushedEvents notes ++ pushedEvents more :=
  List.filterMap_append ..

theorem matchedBy_eq_filter (s : Subscription C) (notes : List QueueNote) :
    matchedBy s notes = (pushedEvents notes).filter s.matchesEvent := by
  induction notes with
  | nil => rfl
  | cons note notes ih =>
    cases note with
    | pushed e wasOpen ok =>
      show matchedBy s ([.pushed e wasOpen ok] ++ notes) = (e :: pushedEvents notes).filter _
      rw [matchedBy_append, ih, List.filter_cons]
      by_cases he : s.matchesEvent e = true
      · rw [if_pos he]
        simp [matchedBy, he]
      · rw [if_neg he]
        simp [matchedBy, he]
    | popped | cleared => exact ih

namespace Mailbox

/-- What can happen to a subscriber, with what it pops and what is published. Events
are lost, or the subscription closed or cleared, only where `free` allows it. -/
inductive Step (free : Prop) :
    Mailbox C → Mailbox C → List PressureEvent → List PressureEvent → Prop
  | calm (m) : Step free m m [] []
  | setCallback (sub coming cb) : Step free ⟨sub, coming⟩ ⟨sub.setCallback cb, coming⟩ [] []
  | pop (sub coming) : Step free ⟨sub, coming⟩ ⟨sub.tryPop.1, coming⟩ sub.tryPop.2.toList []
  | clear (sub coming) : free → Step free ⟨sub, coming⟩ ⟨sub.clear, coming⟩ [] []
  | close (sub coming) : free → Step free ⟨sub, coming⟩ ⟨sub.close, coming⟩ [] []
  | offer (sub coming e) {sub' ok cb} : sub.push e = some (sub', ok, cb) →
      Step free ⟨sub, e :: coming⟩ ⟨sub', coming⟩ [] []
  | pass (sub coming e) : sub.closed = true → Step free ⟨sub, e :: coming⟩ ⟨sub, coming⟩ [] []
  | publish (sub new) : Step free ⟨sub, []⟩ ⟨sub, new⟩ [] new
  | lose (sub coming) : free → Step free ⟨sub, coming⟩ ⟨sub, []⟩ [] []

/-- A subscriber that started as `s₀`, and the stream of events published for it. -/
structure Served (s₀ : Subscription C) (m : Mailbox C) (popped stream : List PressureEvent)
    (notes : List QueueNote) : Prop where
  accounted : Accounted s₀ m.sub notes
  popped : poppedEvents notes = popped
  rejected : m.sub.overflowPolicy ≠ .reject → m.sub.rejected = 0
  stream : (pushedEvents notes ++ m.coming).Sublist stream

/-- Nothing was lost on its way to the subscriber. -/
structure Complete (s₀ : Subscription C) (m : Mailbox C) (stream : List PressureEvent)
    (notes : List QueueNote) : Prop where
  opened : m.sub.closed = false
  stream : pushedEvents notes ++ m.coming = stream
  offered : offeredTo s₀ notes = (matchedBy s₀ notes).length
  cleared : clearedCount notes = 0

/-- What may happen where less is allowed may happen where more is. -/
theorem Step.mono {free free' : Prop} {m m' : Mailbox C} {new more : List PressureEvent}
    (himp : free → free') (h : Step free m m' new more) : Step free' m m' new more := by
  cases h with
  | calm => exact .calm _
  | setCallback => exact .setCallback ..
  | pop => exact .pop ..
  | clear _ _ hfree => exact .clear _ _ (himp hfree)
  | close _ _ hfree => exact .close _ _ (himp hfree)
  | offer _ _ _ hpush => exact .offer _ _ _ hpush
  | pass _ _ _ hclosed => exact .pass _ _ _ hclosed
  | publish => exact .publish ..
  | lose _ _ hfree => exact .lose _ _ (himp hfree)

variable {s₀ : Subscription C} {m m' : Mailbox C} {popped stream new more : List PressureEvent}
  {notes : List QueueNote} {free : Prop}

section

variable {sub sub' : Subscription C} {coming : List PressureEvent} {e : PressureEvent} {ok : Bool}
  {cb : Option C}

/-- Pops are noted as pops and as nothing else. -/
theorem notes_of_pops (s₀ : Subscription C) (es : List PressureEvent) :
    pushedEvents (es.map QueueNote.popped) = [] ∧ offeredTo s₀ (es.map QueueNote.popped) = 0 ∧
      matchedBy s₀ (es.map QueueNote.popped) = [] ∧
      clearedCount (es.map QueueNote.popped) = 0 ∧ poppedEvents (es.map .popped) = es := by
  induction es with
  | nil => exact ⟨rfl, rfl, rfl, rfl, rfl⟩
  | cons e es ih => exact ⟨ih.1, ih.2.1, ih.2.2.1, ih.2.2.2.1, congrArg (e :: ·) ih.2.2.2.2⟩

/-- What is popped was queued. -/
theorem Served.pop (h : Served s₀ ⟨sub, coming⟩ popped stream notes) :
    Served s₀ ⟨sub.tryPop.1, coming⟩ (popped ++ sub.tryPop.2.toList) stream
      (notes ++ sub.tryPop.2.toList.map .popped) := by
  obtain ⟨hpush, -, -, -, hout⟩ := notes_of_pops s₀ sub.tryPop.2.toList
  refine ⟨h.accounted.pop, ?_, ?_, ?_⟩
  · rw [poppedEvents_append, h.popped, hout]
  · have hrej : sub.overflowPolicy ≠ .reject → sub.rejected = 0 := h.rejected
    show sub.tryPop.1.overflowPolicy ≠ .reject → sub.tryPop.1.rejected = 0
    unfold Subscription.tryPop
    cases sub.queue <;> exact hrej
  · rw [pushedEvents_append, hpush, List.append_nil]
    exact h.stream

/-- A pop takes nothing off its way. -/
theorem Complete.pop (h : Complete s₀ ⟨sub, coming⟩ stream notes) :
    Complete s₀ ⟨sub.tryPop.1, coming⟩ stream (notes ++ sub.tryPop.2.toList.map .popped) := by
  obtain ⟨hpush, hoff, hmatch, hclear, -⟩ := notes_of_pops s₀ sub.tryPop.2.toList
  refine ⟨?_, ?_, ?_, ?_⟩
  · have hopen : sub.closed = false := h.opened
    show sub.tryPop.1.closed = false
    unfold Subscription.tryPop
    cases sub.queue <;> exact hopen
  · rw [pushedEvents_append, hpush, List.append_nil]
    exact h.stream
  · rw [offeredTo_append, hoff, matchedBy_append, hmatch, List.append_nil]
    exact h.offered
  · rw [clearedCount_append, hclear]
    exact h.cleared

/-- An event is offered, and queued, dropped or kept out. -/
theorem Served.offer (h : Served s₀ ⟨sub, e :: coming⟩ popped stream notes)
    (hpush : sub.push e = some (sub', ok, cb)) :
    Served s₀ ⟨sub', coming⟩ popped stream (notes ++ [.pushed e (!sub.closed) ok]) := by
  have hout := Subscription.pushes_of_push hpush
  refine ⟨h.accounted.push hout, ?_, ?_, ?_⟩
  · rw [poppedEvents_append, h.popped]
    exact List.append_nil _
  · cases hout with
    | rejected _ _ hpolicy => exact fun hne => absurd hpolicy hne
    | misses | closed | queued | droppedNew | droppedOld => exact h.rejected
  · rw [pushedEvents_append, List.append_assoc]
    exact h.stream

/-- An open subscription counts every event it is offered. -/
theorem Complete.offer (h : Complete s₀ ⟨sub, e :: coming⟩ stream notes)
    (hpush : sub.push e = some (sub', ok, cb)) :
    Complete s₀ ⟨sub', coming⟩ stream (notes ++ [.pushed e (!sub.closed) ok]) := by
  have hopen : sub.closed = false := h.opened
  refine ⟨(Subscription.pushes_of_push hpush).closed_eq.trans hopen, ?_, ?_, ?_⟩
  · rw [pushedEvents_append, List.append_assoc]
    exact h.stream
  · have hone : offeredTo s₀ [.pushed e (!sub.closed) ok]
        = (matchedBy s₀ [.pushed e (!sub.closed) ok]).length := by
      by_cases he : s₀.matchesEvent e = true
      · simp [offeredTo, matchedBy, hopen, he]
      · simp [offeredTo, matchedBy, he]
    rw [offeredTo_append, matchedBy_append, List.length_append, h.offered, hone]
  · rw [clearedCount_append, h.cleared]
    rfl

end

/-- **Whatever happens**, a subscriber is served; and nothing is lost where nothing
may be. -/
theorem Served.step (h : Served s₀ m popped stream notes) (hstep : Step free m m' new more) :
    ∃ notes', Served s₀ m' (popped ++ new) (stream ++ more) notes' ∧
      (¬ free → Complete s₀ m stream notes → Complete s₀ m' (stream ++ more) notes') := by
  obtain ⟨hacc, hpop, hrej, hstream⟩ := h
  cases hstep with
  | calm =>
    rw [List.append_nil, List.append_nil]
    exact ⟨notes, ⟨hacc, hpop, hrej, hstream⟩, fun _ hc => hc⟩
  | setCallback sub coming cb =>
    rw [List.append_nil, List.append_nil]
    exact ⟨notes, ⟨⟨hacc.filter, hacc.maxQueue, hacc.policy, hacc.bounded, hacc.newest, hacc.order,
      hacc.matched, hacc.delivered, hacc.offered⟩, hpop, hrej, hstream⟩,
      fun _ hc => ⟨hc.opened, hc.stream, hc.offered, hc.cleared⟩⟩
  | pop sub coming =>
    rw [List.append_nil]
    exact ⟨_, Served.pop ⟨hacc, hpop, hrej, hstream⟩, fun _ hc => hc.pop⟩
  | clear sub coming hfree =>
    rw [List.append_nil, List.append_nil]
    refine ⟨notes ++ [.cleared sub.queue.length], ⟨hacc.clear, ?_, hrej, ?_⟩, fun hn =>
      absurd hfree hn⟩
    · rw [poppedEvents_append, hpop]
      exact List.append_nil _
    · rw [pushedEvents_append]
      simpa [pushedEvents] using hstream
  | close sub coming hfree =>
    rw [List.append_nil, List.append_nil]
    exact ⟨notes, ⟨hacc.close, hpop, hrej, hstream⟩, fun hn => absurd hfree hn⟩
  | offer sub coming e hpush =>
    rw [List.append_nil, List.append_nil]
    exact ⟨_, Served.offer ⟨hacc, hpop, hrej, hstream⟩ hpush, fun _ hc => hc.offer hpush⟩
  | pass sub coming e hclosed =>
    rw [List.append_nil, List.append_nil]
    refine ⟨notes, ⟨hacc, hpop, hrej, ?_⟩, fun _ hc => ?_⟩
    · refine List.Sublist.trans ?_ hstream
      exact List.Sublist.append_left (List.sublist_cons_self e coming) _
    · have hopen : sub.closed = false := hc.opened
      rw [hclosed] at hopen
      cases hopen
  | publish sub new' =>
    rw [List.append_nil]
    refine ⟨notes, ⟨hacc, hpop, hrej, ?_⟩, fun _ hc => ⟨hc.opened, ?_, hc.offered, hc.cleared⟩⟩
    · rw [List.append_nil] at hstream
      exact hstream.append_right _
    · have hall := hc.stream
      rw [List.append_nil] at hall
      rw [hall]
  | lose sub coming hfree =>
    rw [List.append_nil, List.append_nil]
    refine ⟨notes, ⟨hacc, hpop, hrej, ?_⟩, fun hn => absurd hfree hn⟩
    rw [List.append_nil]
    exact (List.sublist_append_left _ _).trans hstream

end Mailbox

/-! ## Every turn of a session is a step of each mailbox

The mailbox of a subscription is its state together with what the phase of the delivery
has pending for it (`HasMailbox`). A turn may concern another subscription, or none, and
is then no step at all. -/

/-- What a turn publishes. -/
def eventsIn (reports : List (Report F)) : List PressureEvent :=
  (publishedIn reports).flatMap Published.events

@[simp] theorem eventsIn_append (as bs : List (Report F)) :
    eventsIn (as ++ bs) = eventsIn as ++ eventsIn bs := by
  rw [eventsIn, publishedIn_append, List.flatMap_append]
  rfl

/-- Subscription `n` of the session, and what the delivery still has for it. -/
structure HasMailbox (n : Nat) (s : Session F C) (m : Mailbox C) : Prop where
  once : s.phase.waiting.Nodup
  sub : s.subscriptions[n]? = some m.sub
  coming : s.phase.pendingFor n = m.coming

/-- A turn from `s` to `s'` is a step of the mailbox. -/
def MovesMailbox (n : Nat) (free : Prop) (s' : Session F C) (m : Mailbox C)
    (reports : List (Report F)) : Prop :=
  ∃ m', HasMailbox n s' m' ∧ Mailbox.Step free m m' (poppedFrom n reports) (eventsIn reports)

namespace HasMailbox

variable {n : Nat} {s s' : Session F C} {m : Mailbox C} {free : Prop}

/-- The turn does not concern the subscription. -/
theorem calm (h : HasMailbox n s m) (hsub : s'.subscriptions[n]? = s.subscriptions[n]?)
    (honce : s'.phase.waiting.Nodup) (hcoming : s'.phase.pendingFor n = s.phase.pendingFor n) :
    MovesMailbox n free s' m [] :=
  ⟨m, ⟨honce, hsub ▸ h.sub, hcoming.trans h.coming⟩, .calm m⟩

/-- A call of one scope. -/
theorem call (h : HasMailbox n s m) (c : ScopedCall F C) :
    MovesMailbox n (¬ (Turn.call c).keeps n) (s.step (.call c)).1 m (s.step (.call c)).2 := by
  obtain ⟨c, hscope⟩ := c
  obtain ⟨sub, coming⟩ := m
  have hmodify : ∀ {k : Nat} {f : Subscription C → Subscription C},
      (s.subscriptions.modify k f)[n]? = some (if k = n then f sub else sub) :=
    subscription_modify h.sub _ _
  have hmoves : ∀ {s' : Session F C} {sub' : Subscription C} {popped : List PressureEvent}
      {reports : List (Report F)} {free : Prop}, s'.phase = s.phase →
      s'.subscriptions[n]? = some sub' → poppedFrom n reports = popped → eventsIn reports = [] →
      Mailbox.Step free ⟨sub, coming⟩ ⟨sub', coming⟩ popped [] →
      MovesMailbox n free s' ⟨sub, coming⟩ reports := by
    intro s' sub' popped reports free hphase hsub hpop hnone hstep
    refine ⟨⟨sub', coming⟩, ⟨hphase ▸ h.once, hsub, hphase ▸ h.coming⟩, ?_⟩
    rw [hpop, hnone]
    exact hstep
  cases c with
  | setPolicy | refresh | push => cases hscope
  | registerProvider | clearBudget | setHistoryLimit | currentPolicy | currentSnapshot
  | snapshotById | query | admitBytes | pending | closed | setBudget =>
    exact hmoves rfl h.sub rfl rfl (.calm _)
  | subscribe filter cb =>
    refine hmoves rfl ?_ rfl rfl (.calm _)
    show (s.subscriptions ++ [_])[n]? = some sub
    rw [List.getElem?_append_left (List.getElem?_eq_some_iff.mp h.sub).1, h.sub]
  | tryPop k =>
    have hpops : poppedFrom n (s.toShared.pops (.tryPop k))
        = if k = n then sub.tryPop.2.toList else [] := poppedFrom_pops h.sub k
    have hnone : eventsIn (s.toShared.pops (.tryPop k)) = [] := by
      rw [eventsIn, publishedIn_pops]
      rfl
    refine hmoves rfl hmodify hpops hnone ?_
    split_ifs
    · exact .pop sub coming
    · exact .calm _
  | setCallback k cb =>
    refine hmoves rfl hmodify rfl rfl ?_
    split_ifs
    · exact .setCallback sub coming cb
    · exact .calm _
  | close k =>
    refine hmoves rfl hmodify rfl rfl ?_
    split_ifs with hk
    · exact .close sub coming fun hkeeps => hkeeps (congrArg some hk)
    · exact .calm _
  | clear k =>
    refine hmoves rfl hmodify rfl rfl ?_
    split_ifs with hk
    · exact .clear sub coming fun hkeeps => hkeeps (congrArg some hk)
    · exact .calm _

/-- One step of the delivery loop. -/
theorem deliver (h : HasMailbox n s m) : MovesMailbox n free s.deliver m [] := by
  have honce := h.once
  have hcoming := h.coming
  unfold Session.deliver
  cases hphase : s.phase with
  | idle | calling => exact h.calm rfl honce rfl
  | between events =>
    cases events with
    | nil => exact h.calm rfl List.nodup_nil (by rw [hphase]; rfl)
    | cons e events =>
      have hlt : n < s.subscriptions.length := (List.getElem?_eq_some_iff.mp h.sub).1
      refine h.calm rfl List.nodup_range ?_
      rw [hphase]
      simp [Phase.pendingFor, hlt]
  | offering d =>
    rw [hphase, Phase.waiting] at honce
    rw [hphase] at hcoming
    dsimp only
    cases hsubs : d.subscriptions with
    | nil =>
      refine h.calm rfl List.nodup_nil ?_
      rw [hphase]
      simp [Phase.pendingFor, hsubs]
    | cons k ns =>
      rw [hsubs, List.nodup_cons] at honce
      rw [Phase.pendingFor, hsubs] at hcoming
      dsimp only
      cases hget : s.subscriptions[k]? with
      | none =>
        refine h.calm rfl h.once rfl
      | some sub =>
        dsimp only
        by_cases hk : k = n
        · subst hk
          -- it is its turn to be offered the event
          obtain ⟨mine, coming⟩ := m
          obtain rfl : sub = mine := Option.some.inj (hget.symm.trans h.sub)
          have hcoming' : coming = d.event :: d.events := by
            rw [if_pos List.mem_cons_self] at hcoming
            exact hcoming.symm
          subst hcoming'
          have hleft : (if k ∈ ns then [d.event] else []) ++ d.events = d.events := by
            rw [if_neg honce.1, List.nil_append]
          split_ifs with hclosed
          · exact ⟨⟨sub, d.events⟩, ⟨honce.2, h.sub, hleft⟩, .pass sub d.events d.event hclosed⟩
          · cases hpush : sub.push d.event with
            | none => exact h.calm rfl h.once rfl
            | some out =>
              obtain ⟨sub', ok, cb⟩ := out
              dsimp only
              have hmine : (s.subscriptions.modify k fun _ => sub')[k]? = some sub' := by
                rw [List.getElem?_modify, hget]
                simp
              refine ⟨⟨sub', d.events⟩, ⟨?_, hmine, ?_⟩, .offer sub d.events d.event hpush⟩
              · split_ifs <;> exact honce.2
              · split_ifs <;> exact hleft
        · have hsame : (if n ∈ ns then [d.event] else []) ++ d.events = s.phase.pendingFor n := by
            rw [hphase, Phase.pendingFor, hsubs]
            simp [Ne.symm hk]
          split_ifs with hclosed
          · exact h.calm rfl honce.2 hsame
          · cases hpush : sub.push d.event with
            | none => exact h.calm rfl h.once rfl
            | some out =>
              obtain ⟨sub', ok, cb⟩ := out
              dsimp only
              refine h.calm ?_ ?_ ?_
              · show (s.subscriptions.modify k fun _ => sub')[n]? = s.subscriptions[n]?
                rw [List.getElem?_modify]
                simp [hk]
              · split_ifs <;> exact honce.2
              · split_ifs <;> exact hsame

/-- **Every turn is a step of the mailbox.** Events are lost on their way, or the
subscription closed or cleared, only by a turn that closes or clears it, or that
throws while events are left for it. -/
theorem step (h : HasMailbox n s m) (turn : Turn F C) :
    MovesMailbox n (¬ (turn.keeps n ∧ Spared n s turn)) (s.step turn).1 m (s.step turn).2 := by
  cases turn with
  | call c =>
    obtain ⟨m', hm', hstep⟩ := h.call c
    refine ⟨m', hm', hstep.mono fun hkeeps hboth => hkeeps hboth.1⟩
  | deliver => exact h.deliver
  | setPolicy p =>
    cases hphase : s.phase <;> simp only [Session.step, hphase]
    all_goals exact h.calm rfl h.once rfl
  | refresh nowMs polls =>
    cases hphase : s.phase with
    | idle =>
      simp only [Session.step, hphase]
      obtain ⟨sub, coming⟩ := m
      have hnone : coming = [] := by
        have hcoming := h.coming
        rw [hphase] at hcoming
        exact hcoming.symm
      subst hnone
      rcases s.rt.refresh_cases nowMs polls with ⟨log, hlog⟩ | ⟨-, log, heq⟩
      · rw [hlog.refresh_eq]
        refine ⟨⟨sub, (PressureRuntime.published s.rt.policy s.rt.budgets s.rt nowMs log).events⟩,
          ⟨List.nodup_nil, h.sub, rfl⟩, ?_⟩
        rw [poppedFrom_published, eventsIn, publishedIn_published, List.flatMap_singleton]
        exact .publish sub _
      · rw [heq]
        exact ⟨⟨sub, []⟩, ⟨List.nodup_nil, h.sub, rfl⟩, .calm _⟩
    | _ =>
      simp only [Session.step, hphase]
      exact h.calm rfl h.once rfl
  | callbackReturns =>
    cases hphase : s.phase with
    | calling k d =>
      have honce := h.once
      rw [hphase] at honce
      simp only [Session.step, hphase]
      exact h.calm rfl honce (by rw [hphase]; rfl)
    | _ =>
      simp only [Session.step, hphase]
      exact h.calm rfl h.once rfl
  | callbackThrows =>
    cases hphase : s.phase with
    | calling k d =>
      simp only [Session.step, hphase]
      obtain ⟨sub, coming⟩ := m
      by_cases hleft : s.phase.pendingFor n = []
      · exact h.calm rfl List.nodup_nil hleft.symm
      · refine ⟨⟨sub, []⟩, ⟨List.nodup_nil, h.sub, rfl⟩, .lose sub coming ?_⟩
        intro hboth
        exact hleft (hboth.2 rfl (by rw [hphase]; rfl))
    | _ =>
      simp only [Session.step, hphase]
      exact h.calm rfl h.once rfl

end HasMailbox

/-! ## Sessions -/

/-- **A subscriber is served** in every session, completely where nothing is lost. -/
theorem served_run {n : Nat} {s₀ : Subscription C} {s : Session F C} {m : Mailbox C}
    {popped stream : List PressureEvent} {notes : List QueueNote} (h : HasMailbox n s m)
    (hserved : Mailbox.Served s₀ m popped stream notes) (turns : List (Turn F C)) :
    ∃ m' notes', HasMailbox n (s.runFrom turns) m' ∧
      Mailbox.Served s₀ m' (popped ++ poppedFrom n (s.reports turns))
        (stream ++ eventsIn (s.reports turns)) notes' ∧
      ((∀ turn ∈ turns, turn.keeps n) → Machine.Along Session.step (Spared n) s turns →
        Mailbox.Complete s₀ m stream notes →
        Mailbox.Complete s₀ m' (stream ++ eventsIn (s.reports turns)) notes') := by
  induction turns generalizing s m popped stream notes with
  | nil =>
    refine ⟨m, notes, h, ?_, fun _ _ hc => ?_⟩
    · show Mailbox.Served s₀ m (popped ++ []) (stream ++ []) notes
      rw [List.append_nil, List.append_nil]
      exact hserved
    · show Mailbox.Complete s₀ m (stream ++ []) notes
      rw [List.append_nil]
      exact hc
  | cons turn turns ih =>
    obtain ⟨m₁, h₁, hmove⟩ := h.step turn
    obtain ⟨notes₁, hserved₁, hcomplete₁⟩ := hserved.step hmove
    obtain ⟨m₂, notes₂, h₂, hserved₂, hcomplete₂⟩ := ih h₁ hserved₁
    refine ⟨m₂, notes₂, h₂, ?_, fun hkeeps hspared hc => ?_⟩
    · rw [Session.reports, Machine.outputs_cons, poppedFrom_append, eventsIn_append,
        ← List.append_assoc, ← List.append_assoc]
      exact hserved₂
    · rw [Session.reports, Machine.outputs_cons, eventsIn_append, ← List.append_assoc]
      have hhead : turn.keeps n ∧ Spared n s turn :=
        ⟨hkeeps turn List.mem_cons_self, hspared.1⟩
      exact hcomplete₂ (fun t ht => hkeeps t (List.mem_cons_of_mem turn ht)) hspared.2
        (hcomplete₁ (not_not_intro hhead) hc)

/-- The events of the delivery in progress, from the one that is being delivered. -/
def Phase.batch : Phase → List PressureEvent
  | .idle => []
  | .between events => events
  | .offering d | .calling _ d => d.event :: d.events

theorem Phase.pendingFor_sublist (n : Nat) (phase : Phase) :
    (phase.pendingFor n).Sublist phase.batch := by
  cases phase with
  | idle => exact List.Sublist.refl _
  | between events => exact List.Sublist.refl _
  | offering d | calling _ d =>
    rw [Phase.pendingFor, Phase.batch]
    split_ifs
    · exact List.Sublist.refl _
    · exact List.sublist_cons_self ..

/-- What is being delivered goes to each subscription once, and is numbered in order
up to the counter. -/
structure Orderly (s : Session F C) : Prop where
  once : s.phase.waiting.Nodup
  rising : (s.phase.batch.map PressureEvent.id).Pairwise (· < ·)
  below : ∀ e ∈ s.phase.batch, e.id ≤ s.rt.eventId

namespace Orderly

variable {s s' : Session F C}

/-- The delivery goes on. -/
theorem move (h : Orderly s) (honce : s'.phase.waiting.Nodup)
    (hbatch : s'.phase.batch.Sublist s.phase.batch) (hevent : s.rt.eventId ≤ s'.rt.eventId) :
    Orderly s' :=
  ⟨honce, h.rising.sublist (hbatch.map _),
    fun e he => le_trans (h.below e (hbatch.subset he)) hevent⟩

theorem deliver (h : Orderly s) : Orderly s.deliver := by
  have honce := h.once
  unfold Session.deliver
  cases hphase : s.phase with
  | idle | calling => exact h
  | between events =>
    cases events with
    | nil => exact h.move List.nodup_nil (List.nil_sublist _) (le_refl _)
    | cons e events =>
      refine h.move List.nodup_range ?_ (le_refl _)
      rw [hphase]
      exact List.Sublist.refl _
  | offering d =>
    have hsame : (d.event :: d.events).Sublist s.phase.batch := by
      rw [hphase]
      exact List.Sublist.refl _
    rw [hphase, Phase.waiting] at honce
    dsimp only
    cases hsubs : d.subscriptions with
    | nil => exact h.move List.nodup_nil ((List.sublist_cons_self ..).trans hsame) (le_refl _)
    | cons k ns =>
      rw [hsubs, List.nodup_cons] at honce
      dsimp only
      split
      · exact h
      · split_ifs
        · exact h.move honce.2 hsame (le_refl _)
        · split
          · exact h
          · refine h.move ?_ ?_ (le_refl _)
            · dsimp only [Session.inPhase_phase]
              split_ifs <;> exact honce.2
            · dsimp only [Session.inPhase_phase]
              split_ifs <;> exact hsame

theorem step (h : Orderly s) (turn : Turn F C) : Orderly (s.step turn).1 := by
  have hrt : s.rt.eventId ≤ (s.step turn).1.rt.eventId := by
    rw [(Session.step_runtime turn).1]
    exact le_trans (Nat.le_add_right _ _)
      (Machine.numbers_run (s := s.rt) fun rt op _ => numbers_events rt op).2.2
  cases turn with
  | call c => exact h.move h.once (List.Sublist.refl _) hrt
  | deliver => exact h.deliver
  | setPolicy p =>
    cases hphase : s.phase <;> simp only [Session.step, hphase] at hrt ⊢
    all_goals exact h.move h.once (List.Sublist.refl _) hrt
  | refresh nowMs polls =>
    cases hphase : s.phase with
    | idle =>
      simp only [Session.step, hphase]
      rcases s.rt.refresh_cases nowMs polls with ⟨log, hlog⟩ | ⟨-, log, heq⟩
      · have hids := eventIds_published s.rt nowMs log
        rw [hlog.refresh_eq]
        refine ⟨List.nodup_nil, ?_, ?_⟩
        · show (PressureRuntime.published s.rt.policy s.rt.budgets s.rt nowMs log).eventIds.Pairwise
            _
          rw [hids]
          exact List.pairwise_lt_range'
        · intro e he
          have hmem : e.id ∈
              (PressureRuntime.published s.rt.policy s.rt.budgets s.rt nowMs log).eventIds :=
            List.mem_map_of_mem he
          rw [hids, List.mem_range'_1] at hmem
          show e.id ≤ s.rt.eventId + _
          omega
      · rw [heq]
        exact ⟨List.nodup_nil, List.Pairwise.nil, fun e he => by cases he⟩
    | _ =>
      simp only [Session.step, hphase]
      exact h
  | callbackReturns =>
    cases hphase : s.phase with
    | calling k d =>
      have honce := h.once
      rw [hphase] at honce
      simp only [Session.step, hphase]
      refine h.move honce ?_ (le_refl _)
      rw [hphase]
      exact List.Sublist.refl _
    | _ =>
      simp only [Session.step, hphase]
      exact h
  | callbackThrows =>
    cases hphase : s.phase with
    | calling k d =>
      simp only [Session.step, hphase]
      exact h.move List.nodup_nil (List.nil_sublist _) (le_refl _)
    | _ =>
      simp only [Session.step, hphase]
      exact h

theorem run (h : Orderly s) (turns : List (Turn F C)) : Orderly (s.runFrom turns) :=
  Machine.run_invariant Session.step (I := Orderly) (fun _ turn _ h => h.step turn) h

/-- What a subscriber can be offered is numbered in order. -/
theorem stream_rising (h : Orderly s) (n : Nat) (turns : List (Turn F C)) :
    ((s.phase.pendingFor n ++ eventsIn (s.reports turns)).map PressureEvent.id).Pairwise
      (· < ·) := by
  obtain ⟨hlt, hbounds, -⟩ := Machine.numbers_run (s := s.rt)
    fun rt op (_ : op ∈ s.performed turns) => numbers_events rt op
  have hlater : (eventsIn (s.reports turns)).map PressureEvent.id
      = (publishedBy s.rt (s.performed turns)).flatMap Published.eventIds := by
    rw [eventsIn, (Session.run_runtime s turns).2, List.map_flatMap]
    rfl
  rw [List.map_append, hlater, List.pairwise_append]
  refine ⟨h.rising.sublist ((Phase.pendingFor_sublist n _).map _), hlt, ?_⟩
  intro a ha b hb
  obtain ⟨e, he, rfl⟩ := List.mem_map.mp ha
  exact lt_of_le_of_lt (h.below e ((Phase.pendingFor_sublist n _).subset he)) (hbounds b hb).1

end Orderly

theorem orderly_start : Orderly ({} : Session F C) :=
  ⟨List.nodup_nil, List.Pairwise.nil, fun e he => by cases he⟩

/-- The subscription made by the last turn. -/
theorem hasMailbox_subscribed {s : Session F C} (h : Orderly s) (filter : SubscriptionFilter)
    (cb : Option C) :
    HasMailbox s.subscriptions.length (s.step (.call ⟨.subscribe filter cb, rfl⟩)).1
      ⟨{ filter := filter, callback := cb }, s.phase.pendingFor s.subscriptions.length⟩ where
  once := h.once
  sub := by
    show (s.subscriptions ++ [_])[s.subscriptions.length]? = _
    simp
  coming := rfl

/-- **What a subscriber gets.** In every session, whatever came before and whatever
happens after, a subscription made with any filter has popped and queues, in this
order and without repetition, events that its filter lets through of those left of
the delivery it was made in and published since; it never queues more than 256. If
it is never closed or cleared and no callback throws while events are left for it,
then as soon as nothing is left for it the other such events were dropped, and
counted. The events are those that refreshes deliver: a push by user code itself is no
turn of a session. -/
theorem subscriber_served (pre : List (Turn F C)) (filter : SubscriptionFilter) (cb : Option C)
    (turns : List (Turn F C)) :
    let n := (Session.runFrom {} pre).subscriptions.length
    let start := ((Session.runFrom {} pre).step (.call ⟨.subscribe filter cb, rfl⟩)).1
    let lets := ({ filter := filter } : Subscription C).matchesEvent
    let stream := (start.phase.pendingFor n ++ eventsIn (start.reports turns)).filter lets
    ∃ sub, (start.runFrom turns).subscriptions[n]? = some sub ∧
      sub.queue.length ≤ 256 ∧
      (poppedFrom n (start.reports turns) ++ sub.queue).Sublist stream ∧
      ((poppedFrom n (start.reports turns) ++ sub.queue).map PressureEvent.id).Pairwise (· < ·) ∧
      ((∀ turn ∈ turns, turn.keeps n) → Machine.Along Session.step (Spared n) start turns →
        (start.runFrom turns).phase.pendingFor n = [] →
        (poppedFrom n (start.reports turns)).length + sub.queue.length + sub.dropped
          = stream.length) := by
  intro n start lets stream
  have horderly : Orderly (Session.runFrom {} pre : Session F C) := orderly_start.run pre
  have hstart : Orderly start := horderly.step _
  have hmail := hasMailbox_subscribed horderly filter cb
  have hserved : Mailbox.Served { filter := filter, callback := cb }
      ⟨{ filter := filter, callback := cb }, start.phase.pendingFor n⟩ []
      (start.phase.pendingFor n) [] :=
    ⟨Accounted.start filter 256 .dropOldest cb, rfl, fun _ => rfl, List.Sublist.refl _⟩
  have hcomplete : Mailbox.Complete { filter := filter, callback := cb }
      ⟨{ filter := filter, callback := cb }, start.phase.pendingFor n⟩
      (start.phase.pendingFor n) [] := ⟨rfl, rfl, rfl, rfl⟩
  obtain ⟨m, notes, hm, hserved', hcomplete'⟩ := served_run hmail hserved turns
  have hacc := hserved'.accounted
  have hpopped : poppedEvents notes = poppedFrom n (start.reports turns) := hserved'.popped
  -- what was accepted is what its filter lets through of what was pushed
  have hsub : (poppedFrom n (start.reports turns) ++ m.sub.queue).Sublist
      ((start.phase.pendingFor n ++ eventsIn (start.reports turns)).filter lets) := by
    rw [← hpopped]
    refine hacc.order.trans (hacc.matched.trans ?_)
    rw [matchedBy_eq_filter]
    exact ((List.sublist_append_left _ _).trans hserved'.stream).filter _
  refine ⟨m.sub, hm.sub, ?_, hsub, ?_, fun hkeeps hspared hidle => ?_⟩
  · exact le_trans hacc.bounded (Nat.le_of_eq hacc.maxQueue)
  · exact (hstart.stream_rising n turns).sublist ((hsub.trans List.filter_sublist).map _)
  · have hc := hcomplete' hkeeps hspared hcomplete
    have hall := hc.stream
    rw [← hm.coming, hidle, List.append_nil] at hall
    have hoffered := hacc.offered
    have hdelivered := hacc.delivered
    have hpolicy : m.sub.overflowPolicy = .dropOldest := hacc.policy
    have hrejected := hserved'.rejected (by rw [hpolicy]; decide)
    rw [hpolicy, if_neg (by decide), hc.offered, matchedBy_eq_filter, hall, hrejected] at hoffered
    rw [hpolicy, if_pos rfl, hc.cleared, hpopped] at hdelivered
    have hlength : stream.length = m.sub.delivered := hoffered
    rw [hlength, hdelivered]
    omega

/-- A refresh that discovers a host publishes two events, of which a subscriber to arrivals
is served the one its filter lets through. -/
theorem subscriber_served_arrival :
    let filter : SubscriptionFilter := { eventTypes := [.domainAdded] }
    let turns : List (Turn ℚ Unit) := hostAnnounced none
      ++ [.deliver, .deliver, .deliver, .deliver, .deliver, .call ⟨.tryPop 0, rfl⟩]
    let start := (({} : Session ℚ Unit).step (.call ⟨.subscribe filter none, rfl⟩)).1
    (eventsIn (start.reports turns)).length = 2 ∧
      ∃ sub, (start.runFrom turns).subscriptions[0]? = some sub ∧
        (poppedFrom 0 (start.reports turns)).length + sub.queue.length + sub.dropped = 1 := by
  intro filter turns start
  obtain ⟨sub, hsub, -, -, -, hall⟩ := subscriber_served [] filter none turns
  have hcount := hall (by decide +kernel) (by decide +kernel) (by decide +kernel)
  exact ⟨by decide +kernel, sub, hsub, hcount.trans (by decide +kernel)⟩

end MemoryPressure
