import CounterWatch.Ticker
import Mathlib.Data.List.Basic
import Mathlib.Data.List.Induction
import Mathlib.Data.List.TakeWhile

/-!
# Proofs/Ticker/History — who hears which ticks

Receivers subscribe, close and go away between the ticks, and take out what waits for them whenever
they like.  What becomes of one of them is decided by what happened since it subscribed, and of that
only by the ticks and by its own steps.

* `Ticker.Step`, `Ticker.replay` — a history of a ticker, and a ledger of what came of it.
* `Ticker.heard`, `Ticker.listeners` — the ticks between a subscription and its end, and who has not
  ended, read off a history alone.
* `Ticker.tells_replay` — every receiver lives through a history by itself.
* `Ticker.Account` — what holds of a receiver at every moment, and is kept by each of its steps.
* `Ticker.ticks_reach_listeners` — ticks, counts and forgotten subscribers, for every history.
-/

namespace CounterWatch

/-- The message a receiver finds, if it finds one, and the channel without it. -/
def Channel.next? {α : Type} (c : Channel α) : Option (α × Channel α) :=
  match c.receive with
  | .message a rest => some (a, rest)
  | .ended | .waiting => none

/-- A receiver finds the oldest message, if there is one, whether more can come or not. -/
theorem Channel.next?_eq {α : Type} (c : Channel α) :
    c.next? = c.queue.head?.map fun a => (a, { c with queue := c.queue.tail }) := by
  rw [next?, receive]
  cases c.queue with
  | nil => cases c.isOpen <;> rfl
  | cons a rest => rfl

/-- Whoever listens gets the tick. -/
theorem Subscription.tick_of_open {s : Subscription} (hknown : s.known = true)
    (hopen : s.channel.isOpen = true) (time : UInt64) :
    s.tick time = { s with channel := { s.channel with queue := s.channel.queue ++ [time] } } := by
  rw [tick, if_pos hknown, Channel.send, if_pos hopen]

/-- Whoever does not listen is forgotten. -/
theorem Subscription.tick_of_closed {s : Subscription} (hclosed : s.channel.isOpen = false)
    (time : UInt64) : s.tick time = { s with known := false } := by
  rw [tick, Channel.send, hclosed]
  by_cases hknown : s.known = true
  · rw [if_pos hknown, if_neg Bool.false_ne_true]
  · rw [if_neg hknown, ← Bool.eq_false_iff.mpr hknown]

namespace Ticker

/-! ## Histories -/

/-- What can happen to a ticker and to the receivers of its subscribers, who are numbered in the
order of their subscription. -/
inductive Step where
  | subscribe
  | tick (time : UInt64)
  | close (receiver : Nat)
  | drop (receiver : Nat)
  | receive (receiver : Nat)
  deriving DecidableEq

namespace Step

/-- The time of a tick. -/
def time? : Step → Option UInt64
  | .tick time => some time
  | _ => none

/-- Whether a receiver accepts no more ticks from this step on. -/
def ends (i : Nat) : Step → Bool
  | .close j | .drop j => j = i
  | _ => false

/-- Whether a step is other than one of another receiver. -/
def concerns (i : Nat) : Step → Bool
  | .subscribe | .tick _ => true
  | .close j | .drop j | .receive j => j = i

theorem time?_of_ends {i : Nat} {step : Step} (h : step.ends i) : step.time? = none := by
  cases step <;> simp_all [ends, time?]

end Step

/-- How many subscribed. -/
def subscribed (steps : List Step) : Nat := steps.count .subscribe

/-- What happened after a receiver subscribed. -/
def since : List Step → Nat → List Step
  | [], _ => []
  | .subscribe :: rest, 0 => rest
  | .subscribe :: rest, i + 1 => since rest i
  | _ :: rest, i => since rest i

/-- The times of the ticks in what happened after a receiver subscribed, up to its end. -/
def audible (i : Nat) (life : List Step) : List UInt64 :=
  (life.takeWhile (!·.ends i)).filterMap Step.time?

/-- Whether a tick came after the end of a receiver. -/
def overdue (i : Nat) (life : List Step) : Bool :=
  (life.dropWhile (!·.ends i)).any (·.time?.isSome)

/-- The times of the ticks made after a receiver subscribed and before it ended. -/
def heard (steps : List Step) (i : Nat) : List UInt64 := audible i (since steps i)

/-- Those who subscribed and have not ended, in the order of their subscription. -/
def listeners (steps : List Step) : List Nat :=
  (List.range (subscribed steps)).filter fun i => (since steps i).all (!·.ends i)

theorem subscribed_append (steps more : List Step) :
    subscribed (steps ++ more) = subscribed steps + subscribed more := List.count_append

theorem subscribed_cons_of_ne {step : Step} (h : step ≠ .subscribe) (rest : List Step) :
    subscribed (step :: rest) = subscribed rest := List.count_cons_of_ne h

theorem since_cons_of_ne {step : Step} (h : step ≠ .subscribe) (rest : List Step) (i : Nat) :
    since (step :: rest) i = since rest i := by
  cases step <;> first | rfl | contradiction

/-- Those who have not subscribed yet do so later. -/
theorem since_append_of_le {steps : List Step} {i : Nat} (h : subscribed steps ≤ i)
    (more : List Step) : since (steps ++ more) i = since more (i - subscribed steps) := by
  induction steps generalizing i with
  | nil => rfl
  | cons step rest ih =>
    by_cases hstep : step = .subscribe
    · subst hstep
      rw [subscribed, List.count_cons_self] at h ⊢
      cases i with
      | zero => simp at h
      | succ i =>
        rw [Nat.add_sub_add_right]
        exact ih (Nat.le_of_succ_le_succ h)
    · rw [subscribed_cons_of_ne hstep] at h ⊢
      rw [List.cons_append, since_cons_of_ne hstep]
      exact ih h

/-- What happens after a receiver subscribed is added to its end. -/
theorem since_append {steps : List Step} {i : Nat} (h : i < subscribed steps) (more : List Step) :
    since (steps ++ more) i = since steps i ++ more := by
  induction steps generalizing i with
  | nil => simp [subscribed] at h
  | cons step rest ih =>
    by_cases hstep : step = .subscribe
    · subst hstep
      cases i with
      | zero => rfl
      | succ i => exact ih (by simpa [subscribed] using h)
    · rw [List.cons_append, since_cons_of_ne hstep, since_cons_of_ne hstep]
      exact ih (subscribed_cons_of_ne hstep rest ▸ h)

/-- What others did may be left out before the life of a receiver is looked up, or after. -/
theorem since_filter_concerns (steps : List Step) (i j : Nat) :
    since (steps.filter (·.concerns j)) i = (since steps i).filter (·.concerns j) := by
  induction steps generalizing i with
  | nil => rfl
  | cons step rest ih =>
    by_cases hstep : step = .subscribe
    · subst hstep
      cases i with
      | zero => rfl
      | succ i => exact ih i
    · rw [since_cons_of_ne hstep, List.filter_cons]
      split_ifs
      · rw [since_cons_of_ne hstep, ih]
      · exact ih i

theorem subscribed_filter_concerns (steps : List Step) (j : Nat) :
    subscribed (steps.filter (·.concerns j)) = subscribed steps := by
  rw [subscribed, List.count_filter rfl]
  rfl

/-! ## Up to the end, and after it -/

/-- A step is heard if it is a tick, and no end came before it. -/
theorem audible_concat (i : Nat) (life : List Step) (step : Step) :
    audible i (life ++ [step])
      = audible i life ++ if life.all (!·.ends i) then step.time?.toList else [] := by
  induction life with
  | nil =>
    by_cases hstep : step.ends i
    · simp [audible, hstep, Step.time?_of_ends hstep]
    · cases htime : step.time? <;> simp [audible, hstep, htime]
  | cons first life ih =>
    by_cases hfirst : first.ends i
    · simp [audible, hfirst]
    · cases htime : first.time? <;> simpa [audible, hfirst, htime] using ih

/-- A tick has come too late if one had before, or if this one comes behind an end. -/
theorem overdue_concat (i : Nat) (life : List Step) (step : Step) :
    overdue i (life ++ [step])
      = (overdue i life || (!life.all (!·.ends i) && step.time?.isSome)) := by
  induction life with
  | nil =>
    by_cases hstep : step.ends i
    · simp [overdue, hstep, Step.time?_of_ends hstep]
    · simp [overdue, hstep]
  | cons first life ih =>
    by_cases hfirst : first.ends i
    · simp [overdue, hfirst, Bool.or_assoc]
    · simpa [overdue, hfirst] using ih

theorem overdue_of_all {i : Nat} {life : List Step} (h : life.all (!·.ends i)) :
    overdue i life = false := by
  rw [overdue, List.dropWhile_eq_nil_iff.mpr (List.all_eq_true.mp h)]
  rfl

/-! ## Replaying a history -/

/-- What waits for a receiver. -/
def waiting (t : Ticker) (i : Nat) : List UInt64 :=
  (t.subscriptions[i]?.map (·.channel.queue)).getD []

/-- Those the ticker knows, in the order of their subscription. -/
def audience (t : Ticker) : List Nat :=
  (List.range t.subscriptions.length).filter fun i => t.subscriptions[i]?.any (·.known)

/-- A ticker, with what its receivers took out and what they left behind when they went away. -/
structure Ledger where
  ticker : Ticker := {}
  taken : List (Nat × UInt64) := []
  lost : List (Nat × UInt64) := []
  deriving DecidableEq

/-- The times in a ledger that belong to one receiver. -/
def entries (i : Nat) (book : List (Nat × UInt64)) : List UInt64 :=
  (book.filter (·.1 = i)).map (·.2)

namespace Ledger

def takenBy (l : Ledger) (i : Nat) : List UInt64 := entries i l.taken

def lostBy (l : Ledger) (i : Nat) : List UInt64 := entries i l.lost

/-- A receiver looks for a tick. -/
def receive (l : Ledger) (i : Nat) : Ledger :=
  match l.ticker.subscriptions[i]?.bind (·.channel.next?) with
  | some (time, rest) =>
      { l with
        ticker := l.ticker.modify i fun _ => rest
        taken := l.taken ++ [(i, time)] }
  | none => l

/-- A receiver goes away. -/
def drop (l : Ledger) (i : Nat) : Ledger :=
  { l with
    ticker := l.ticker.modify i Channel.dropReceiver
    lost := l.lost ++ (l.ticker.waiting i).map (i, ·) }

/-- Takes one step. -/
def perform (l : Ledger) : Step → Ledger
  | .subscribe => { l with ticker := l.ticker.subscribe }
  | .tick time => { l with ticker := (l.ticker.tick time).2 }
  | .close i => { l with ticker := l.ticker.modify i Channel.close }
  | .drop i => l.drop i
  | .receive i => l.receive i

end Ledger

/-- Takes one step after the other, from a ticker without subscribers. -/
def replay (steps : List Step) : Ledger := steps.foldl Ledger.perform {}

theorem replay_concat (steps : List Step) (step : Step) :
    replay (steps ++ [step]) = (replay steps).perform step := List.foldl_concat ..

/-! ## One receiver by itself -/

/-- What is to be known of one receiver: its subscription, what it took out and what it left
behind. -/
structure Seat where
  subscription : Subscription := { channel := {} }
  taken : List UInt64 := []
  lost : List UInt64 := []

namespace Seat

/-- A receiver whose channel changed. -/
def onChannel (p : Seat) (f : Channel UInt64 → Channel UInt64) : Seat :=
  { p with subscription := { p.subscription with channel := f p.subscription.channel } }

/-- A receiver that looked for a tick. -/
def receive (p : Seat) : Seat :=
  match p.subscription.channel.next? with
  | some (time, rest) => { p.onChannel fun _ => rest with taken := p.taken ++ [time] }
  | none => p

/-- A receiver that went away. -/
def drop (p : Seat) : Seat :=
  { p.onChannel Channel.dropReceiver with lost := p.lost ++ p.subscription.channel.queue }

/-- What a step does to a receiver. -/
def perform (i : Nat) (p : Seat) : Step → Seat
  | .subscribe => p
  | .tick time => { p with subscription := p.subscription.tick time }
  | .close j => if j = i then p.onChannel Channel.close else p
  | .drop j => if j = i then p.drop else p
  | .receive j => if j = i then p.receive else p

/-- What a life does to a receiver. -/
def performAll (i : Nat) (p : Seat) (life : List Step) : Seat := life.foldl (perform i) p

/-- What another receiver does is not noticed. -/
theorem perform_of_not_concerns {i : Nat} {step : Step} (h : step.concerns i = false) (p : Seat) :
    p.perform i step = p := by
  cases step <;> simp_all [Step.concerns, perform]

/-- **A receiver lives as if the others did nothing.** -/
theorem performAll_filter_concerns (i : Nat) (life : List Step) (p : Seat) :
    p.performAll i (life.filter (·.concerns i)) = p.performAll i life := by
  rw [performAll, performAll, List.foldl_filter]
  refine List.foldl_ext _ _ _ fun q step _ => ?_
  split_ifs with h
  · rfl
  · exact (perform_of_not_concerns (eq_false_of_ne_true h) q).symm

end Seat

/-- The place of a receiver in a ledger. -/
def Ledger.seat? (l : Ledger) (i : Nat) : Option Seat :=
  l.ticker.subscriptions[i]?.map fun s => ⟨s, l.takenBy i, l.lostBy i⟩

theorem getElem?_of_seat? {l : Ledger} {i : Nat} {p : Seat} (h : l.seat? i = some p) :
    l.ticker.subscriptions[i]? = some p.subscription := by
  obtain ⟨s, hs, rfl⟩ := Option.map_eq_some_iff.mp h
  exact hs

/-- What waits for a receiver can be told from its place alone, and so can what it took and lost. -/
theorem waiting_of_seat? {l : Ledger} {i : Nat} {p : Seat} (h : l.seat? i = some p) :
    l.ticker.waiting i = p.subscription.channel.queue := by
  rw [waiting, getElem?_of_seat? h]
  rfl

theorem takenBy_of_seat? {l : Ledger} {i : Nat} {p : Seat} (h : l.seat? i = some p) :
    l.takenBy i = p.taken := by
  obtain ⟨s, -, rfl⟩ := Option.map_eq_some_iff.mp h
  rfl

theorem lostBy_of_seat? {l : Ledger} {i : Nat} {p : Seat} (h : l.seat? i = some p) :
    l.lostBy i = p.lost := by
  obtain ⟨s, -, rfl⟩ := Option.map_eq_some_iff.mp h
  rfl

@[simp] theorem entries_append (i : Nat) (book more : List (Nat × UInt64)) :
    entries i (book ++ more) = entries i book ++ entries i more := by
  simp [entries]

@[simp] theorem entries_singleton (i j : Nat) (time : UInt64) :
    entries i [(j, time)] = if j = i then [time] else [] := by
  by_cases h : j = i <;> simp [entries, h]

theorem entries_map (i j : Nat) (times : List UInt64) :
    entries i (times.map (j, ·)) = if j = i then times else [] := by
  by_cases h : j = i <;> simp [entries, List.filter_map, Function.comp_def, h]

/-- Changing the channel of one receiver changes that one only. -/
theorem getElem?_modify (t : Ticker) (f : Channel UInt64 → Channel UInt64) (i j : Nat) :
    (t.modify j f).subscriptions[i]? = t.subscriptions[i]?.map fun s =>
      if j = i then { s with channel := f s.channel } else s := by
  simp only [modify, List.getElem?_modify, Option.map_eq_map]

/-- A receiver that goes away loses what was waiting; the others stay in their places. -/
theorem seat?_drop {l : Ledger} {i : Nat} {p : Seat} (h : l.seat? i = some p) (j : Nat) :
    (l.drop j).seat? i = some (if j = i then p.drop else p) := by
  obtain ⟨s, hs, rfl⟩ := Option.map_eq_some_iff.mp h
  have hlost : (l.drop j).lostBy i
      = l.lostBy i ++ if j = i then l.ticker.waiting j else [] := by
    rw [Ledger.lostBy, Ledger.drop, entries_append, entries_map]
    rfl
  rw [Ledger.seat?, hlost, Ledger.drop, getElem?_modify, hs]
  split_ifs with hj
  · rw [hj, waiting, hs]
    rfl
  · rw [List.append_nil]
    rfl

/-- Looking for a tick in a ledger is doing so in one's own place. -/
theorem seat?_receive_own {l : Ledger} {i : Nat} {p : Seat} (h : l.seat? i = some p) :
    (l.receive i).seat? i = some p.receive := by
  have hnext : l.ticker.subscriptions[i]?.bind (·.channel.next?)
      = p.subscription.channel.next? := by
    rw [getElem?_of_seat? h, Option.bind_some]
  rw [Ledger.receive, Seat.receive, hnext]
  cases p.subscription.channel.next? with
  | none => exact h
  | some found =>
    obtain ⟨s, hs, rfl⟩ := Option.map_eq_some_iff.mp h
    simp [Ledger.seat?, getElem?_modify, hs, Ledger.takenBy, Ledger.lostBy, Seat.onChannel]

theorem seat?_receive_other {l : Ledger} {i j : Nat} {p : Seat} (h : l.seat? i = some p)
    (hj : j ≠ i) : (l.receive j).seat? i = some p := by
  rw [Ledger.receive]
  split
  · simpa [Ledger.seat?, getElem?_modify, Ledger.takenBy, Ledger.lostBy, hj] using h
  · exact h

/-- **A step does to every receiver what it does to that receiver alone.** -/
theorem seat?_perform {l : Ledger} {i : Nat} {p : Seat} (h : l.seat? i = some p) (step : Step) :
    (l.perform step).seat? i = some (p.perform i step) := by
  cases step with
  | subscribe =>
    obtain ⟨s, hs, rfl⟩ := Option.map_eq_some_iff.mp h
    have hlt : i < l.ticker.subscriptions.length := (List.getElem?_eq_some_iff.mp hs).1
    rw [Ledger.seat?, Ledger.perform, subscribe, List.getElem?_append_left hlt, hs]
    rfl
  | tick time =>
    obtain ⟨s, hs, rfl⟩ := Option.map_eq_some_iff.mp h
    rw [Ledger.seat?, Ledger.perform, tick, List.getElem?_map, hs]
    rfl
  | close j =>
    obtain ⟨s, hs, rfl⟩ := Option.map_eq_some_iff.mp h
    rw [Ledger.seat?, Ledger.perform, getElem?_modify, hs, Seat.perform]
    split_ifs <;> rfl
  | drop j => exact (seat?_drop h j).trans rfl
  | receive j =>
    rw [Ledger.perform, Seat.perform]
    split_ifs with hj
    · exact hj ▸ seat?_receive_own (hj ▸ h)
    · exact seat?_receive_other h hj

/-- There is one more place after a subscription, and after no other step. -/
theorem length_perform (l : Ledger) (step : Step) :
    (l.perform step).ticker.subscriptions.length
      = l.ticker.subscriptions.length + subscribed [step] := by
  cases step with
  | subscribe => exact List.length_append
  | tick time => exact List.length_map _
  | close j => exact List.length_modify ..
  | drop j => exact List.length_modify ..
  | receive j =>
    rw [Ledger.perform, Ledger.receive]
    split
    · exact List.length_modify ..
    · rfl

/-- Nothing is written down for those who have not subscribed. -/
theorem entries_perform {l : Ledger} {i : Nat} (h : l.ticker.subscriptions.length ≤ i)
    (step : Step) :
    (l.perform step).takenBy i = l.takenBy i ∧ (l.perform step).lostBy i = l.lostBy i := by
  have hnone : l.ticker.subscriptions[i]? = none := List.getElem?_eq_none h
  cases step with
  | subscribe | tick | close => exact ⟨rfl, rfl⟩
  | drop j =>
    refine ⟨rfl, ?_⟩
    rw [Ledger.perform, Ledger.lostBy, Ledger.drop, entries_append, entries_map]
    split_ifs with hj
    · simp [waiting, hj, hnone, Ledger.lostBy]
    · exact List.append_nil _
  | receive j =>
    rw [Ledger.perform, Ledger.receive]
    split
    next time rest hnext =>
      have hj : j ≠ i := by
        rintro rfl
        simp [hnone] at hnext
      exact ⟨by simp [Ledger.takenBy, hj], rfl⟩
    · exact ⟨rfl, rfl⟩

/-- A new subscriber starts with nothing. -/
theorem seat?_subscribe {l : Ledger} (htaken : l.takenBy l.ticker.subscriptions.length = [])
    (hlost : l.lostBy l.ticker.subscriptions.length = []) :
    (l.perform .subscribe).seat? l.ticker.subscriptions.length = some {} := by
  have hlast : l.ticker.subscribe.subscriptions[l.ticker.subscriptions.length]?
      = some { channel := {} } := List.getElem?_concat_length ..
  rw [Ledger.seat?, Ledger.perform, hlast]
  exact congrArg some (congrArg₂ (Seat.mk _) htaken hlost)

/-- A ledger tells a history: there is a place for everyone who subscribed, and what is known there
comes of the life of that receiver. -/
structure Tells (l : Ledger) (steps : List Step) : Prop where
  size : l.ticker.subscriptions.length = subscribed steps
  seat : ∀ i < subscribed steps, l.seat? i = some (Seat.performAll i {} (since steps i))
  unwritten : ∀ i, subscribed steps ≤ i → l.takenBy i = [] ∧ l.lostBy i = []

/-- **A ledger that tells a history tells it one step further.** -/
theorem Tells.perform {l : Ledger} {steps : List Step} (h : Tells l steps) (step : Step) :
    Tells (l.perform step) (steps ++ [step]) where
  size := by rw [length_perform, h.size, subscribed_append]
  seat i hi := by
    rw [subscribed_append] at hi
    rcases Nat.lt_or_ge i (subscribed steps) with hlt | hge
    · rw [seat?_perform (h.seat i hlt), since_append hlt, Seat.performAll, Seat.performAll,
        List.foldl_concat]
    · obtain ⟨rfl, rfl⟩ : step = .subscribe ∧ i = subscribed steps := by
        by_cases hstep : step = .subscribe
        · subst hstep
          exact ⟨rfl, Nat.le_antisymm (Nat.lt_succ_iff.mp hi) hge⟩
        · rw [subscribed_cons_of_ne hstep] at hi
          exact absurd hge (Nat.not_le.mpr hi)
      obtain ⟨htaken, hlost⟩ := h.unwritten _ hge
      rw [since_append_of_le hge, Nat.sub_self, ← h.size] at *
      exact seat?_subscribe htaken hlost
  unwritten i hi := by
    rw [subscribed_append] at hi
    have hle : subscribed steps ≤ i := by omega
    obtain ⟨htaken, hlost⟩ := entries_perform (h.size.trans_le hle) step
    rw [htaken, hlost]
    exact h.unwritten i hle

/-- **Every receiver lives through a history by itself.** -/
theorem tells_replay (steps : List Step) : Tells (replay steps) steps := by
  induction steps using List.reverseRecOn with
  | nil => exact ⟨rfl, fun i hi => absurd hi (Nat.not_lt_zero i), fun i _ => ⟨rfl, rfl⟩⟩
  | append_singleton steps step ih =>
    rw [replay_concat]
    exact ih.perform step

/-! ## What a receiver has to show for its life -/

theorem Seat.receive_of_nil {p : Seat} (h : p.subscription.channel.queue = []) :
    p.receive = p := by
  rw [receive, Channel.next?_eq, h]
  rfl

theorem Seat.receive_of_cons {p : Seat} {time : UInt64} {rest : List UInt64}
    (h : p.subscription.channel.queue = time :: rest) :
    p.receive = { p.onChannel ({ · with queue := rest }) with taken := p.taken ++ [time] } := by
  rw [receive, Channel.next?_eq, h]
  rfl

/-- What holds of a receiver after its life so far.  It accepts ticks until it ends; the ticker
knows it until a tick comes after that; and the ticks up to its end are those it took out, those
waiting for it and those it left behind, in this order. -/
structure Account (i : Nat) (life : List Step) (p : Seat) : Prop where
  hasSender : p.subscription.channel.hasSender = true
  accepting : p.subscription.channel.accepting = life.all (!·.ends i)
  known : p.subscription.known = !overdue i life
  whole : p.taken ++ p.subscription.channel.queue ++ p.lost = audible i life
  stayed : .drop i ∉ life → p.lost = []
  left : .drop i ∈ life → p.subscription.channel.queue = []

namespace Account

variable {i : Nat} {life : List Step} {p : Seat}

/-- A step that is no tick and no end of the receiver is not noticed. -/
theorem quiet (h : Account i life p) {step : Step} (hends : step.ends i = false)
    (htime : step.time? = none) : Account i (life ++ [step]) p := by
  have hmem : .drop i ∈ life ++ [step] ↔ .drop i ∈ life := by
    have hne : .drop i ≠ step := by
      rintro rfl
      simp [Step.ends] at hends
    simp [hne]
  exact
    { hasSender := h.hasSender
      accepting := by simp [h.accepting, hends]
      known := by simp [h.known, overdue_concat, htime]
      whole := by simp [← h.whole, audible_concat, htime]
      stayed := fun hdrop => h.stayed (mt hmem.mpr hdrop)
      left := fun hdrop => h.left (hmem.mp hdrop) }

/-- **A tick is heard, or is overdue**: it joins those that wait, or the ticker forgets the
receiver. -/
theorem tick (h : Account i life p) (time : UInt64) :
    Account i (life ++ [.tick time]) { p with subscription := p.subscription.tick time } := by
  have hmem : .drop i ∈ life ++ [Step.tick time] ↔ .drop i ∈ life := by simp
  have hopen : p.subscription.channel.isOpen = life.all (!·.ends i) := by
    rw [Channel.isOpen, h.hasSender, h.accepting, Bool.true_and]
  by_cases hall : life.all (!·.ends i)
  · have hdrop : .drop i ∉ life := fun hmem' => by
      simpa [Step.ends] using List.all_eq_true.mp hall _ hmem'
    have hoverdue : overdue i life = false := overdue_of_all hall
    rw [Subscription.tick_of_open (by rw [h.known, hoverdue]; rfl) (hopen.trans hall)]
    exact
      { hasSender := h.hasSender
        accepting := by simp [h.accepting, Step.ends]
        known := by simp [h.known, overdue_concat, hall]
        whole := by simp [audible_concat, hall, ← h.whole, h.stayed hdrop, Step.time?]
        stayed := fun _ => h.stayed hdrop
        left := fun hmem' => absurd (hmem.mp hmem') hdrop }
  · have hclosed := Bool.eq_false_iff.mpr hall
    rw [Subscription.tick_of_closed (hopen.trans hclosed)]
    exact
      { hasSender := h.hasSender
        accepting := by simp [h.accepting, Step.ends]
        known := by simp [overdue_concat, hclosed, Step.time?]
        whole := by simp [audible_concat, hclosed, ← h.whole]
        stayed := fun hdrop => h.stayed (mt hmem.mpr hdrop)
        left := fun hdrop => h.left (hmem.mp hdrop) }

/-- A receiver that closes keeps what is waiting, and accepts nothing more. -/
theorem close (h : Account i life p) :
    Account i (life ++ [.close i]) (p.onChannel Channel.close) where
  hasSender := h.hasSender
  accepting := by simp [Seat.onChannel, Channel.close, Step.ends]
  known := by simp [Seat.onChannel, h.known, overdue_concat, Step.time?]
  whole := by
    rw [audible_concat, ← h.whole]
    simp [Seat.onChannel, Channel.close, Step.time?]
  stayed hdrop := h.stayed fun hmem => hdrop (List.mem_append_left _ hmem)
  left hdrop := h.left (by simpa using hdrop)

/-- A receiver that goes away leaves behind what was waiting. -/
theorem drop (h : Account i life p) : Account i (life ++ [.drop i]) p.drop where
  hasSender := h.hasSender
  accepting := by simp [Seat.drop, Seat.onChannel, Channel.dropReceiver, Step.ends]
  known := by simp [Seat.drop, Seat.onChannel, h.known, overdue_concat, Step.time?]
  whole := by
    -- either nothing was left behind before, or nothing was waiting any more
    have hcomm : p.lost ++ p.subscription.channel.queue
        = p.subscription.channel.queue ++ p.lost := by
      by_cases hdrop : .drop i ∈ life
      · rw [h.left hdrop, List.append_nil, List.nil_append]
      · rw [h.stayed hdrop, List.append_nil, List.nil_append]
    rw [audible_concat, ← h.whole]
    simp [Seat.drop, Seat.onChannel, Channel.dropReceiver, Step.time?, hcomm]
  stayed hdrop := absurd (List.mem_append_right _ (List.mem_singleton_self _)) hdrop
  left _ := rfl

/-- Taking a tick out moves it from those that wait to those taken. -/
theorem receive (h : Account i life p) : Account i life p.receive := by
  rcases hqueue : p.subscription.channel.queue with - | ⟨time, rest⟩
  · rwa [Seat.receive_of_nil hqueue]
  · rw [Seat.receive_of_cons hqueue]
    exact
      { hasSender := h.hasSender
        accepting := h.accepting
        known := h.known
        whole := by simp [Seat.onChannel, ← h.whole, hqueue]
        stayed := h.stayed
        left := fun hdrop => by simp [h.left hdrop] at hqueue }

/-- **Every step keeps the account.** -/
theorem perform (h : Account i life p) (step : Step) :
    Account i (life ++ [step]) (p.perform i step) := by
  cases step with
  | subscribe => exact h.quiet rfl rfl
  | tick time => exact h.tick time
  | close j =>
    rw [Seat.perform]
    split_ifs with hj
    · exact hj ▸ h.close
    · exact h.quiet (decide_eq_false hj) rfl
  | drop j =>
    rw [Seat.perform]
    split_ifs with hj
    · exact hj ▸ h.drop
    · exact h.quiet (decide_eq_false hj) rfl
  | receive j =>
    rw [Seat.perform]
    split_ifs
    · exact h.receive.quiet rfl rfl
    · exact h.quiet rfl rfl

end Account

/-- The account holds after any life. -/
theorem account_performAll (i : Nat) (life : List Step) :
    Account i life (Seat.performAll i {} life) := by
  induction life using List.reverseRecOn with
  | nil => exact ⟨rfl, rfl, rfl, rfl, fun _ => rfl, fun _ => rfl⟩
  | append_singleton life step ih =>
    rw [Seat.performAll, List.foldl_concat]
    exact ih.perform step

theorem account_replay {steps : List Step} {i : Nat} (h : i < subscribed steps) :
    ∃ p, (replay steps).seat? i = some p ∧ Account i (since steps i) p :=
  ⟨_, (tells_replay steps).seat i h, account_performAll i (since steps i)⟩

/-- A longer history adds to what the receiver lived through. -/
theorem seat?_replay_append {steps : List Step} {i : Nat} (h : i < subscribed steps)
    (more : List Step) :
    (replay (steps ++ more)).seat? i = ((replay steps).seat? i).map (·.performAll i more) := by
  have hmore : i < subscribed (steps ++ more) :=
    h.trans_le ((Nat.le_add_right ..).trans_eq (subscribed_append steps more).symm)
  rw [(tells_replay _).seat i hmore, (tells_replay _).seat i h, since_append h, Seat.performAll,
    List.foldl_append]
  rfl

/-- Looking for a tick so many times takes out as many, as long as there are some. -/
theorem taken_performAll_receive (i n : Nat) (p : Seat) :
    (p.performAll i (List.replicate n (.receive i))).taken
      = p.taken ++ p.subscription.channel.queue.take n := by
  induction n generalizing p with
  | zero => exact (List.append_nil _).symm
  | succ n ih =>
    have hfirst : p.performAll i (List.replicate (n + 1) (.receive i))
        = p.receive.performAll i (List.replicate n (.receive i)) := by
      rw [List.replicate_succ, Seat.performAll, List.foldl_cons, Seat.perform, if_pos rfl]
      rfl
    rw [hfirst, ih]
    rcases hqueue : p.subscription.channel.queue with - | ⟨time, rest⟩
    · simp [Seat.receive_of_nil hqueue, hqueue]
    · simp [Seat.receive_of_cons hqueue, Seat.onChannel]

/-- What is taken out last is what was waiting. -/
theorem takenBy_replay_receive {steps : List Step} {i : Nat} (h : i < subscribed steps) (n : Nat) :
    (replay (steps ++ List.replicate n (.receive i))).takenBy i
      = (replay steps).takenBy i ++ ((replay steps).ticker.waiting i).take n := by
  have hseat := (tells_replay steps).seat i h
  have hseat' := seat?_replay_append h (List.replicate n (.receive i))
  rw [hseat, Option.map_some] at hseat'
  rw [takenBy_of_seat? hseat', takenBy_of_seat? hseat, waiting_of_seat? hseat,
    taken_performAll_receive]

/-! ## Whom the ticker knows -/

theorem length_audience (t : Ticker) :
    t.audience.length = t.subscriptions.countP (·.known) := by
  rw [audience, ← List.countP_eq_length_filter]
  induction t.subscriptions with
  | nil => rfl
  | cons s rest ih =>
    simp [List.range_succ_eq_map, List.countP_cons, List.countP_map, Function.comp_def, ih]

/-- The ticker knows those who subscribed and for whom no tick has come too late. -/
theorem audience_replay (steps : List Step) :
    (replay steps).ticker.audience
      = (List.range (subscribed steps)).filter fun i => !overdue i (since steps i) := by
  rw [audience, (tells_replay steps).size]
  refine List.filter_congr fun i hi => ?_
  obtain ⟨p, hp, haccount⟩ := account_replay (List.mem_range.mp hi)
  rw [getElem?_of_seat? hp]
  exact haccount.known

/-- A tick that came too late has come too late for good. -/
theorem overdue_append {i : Nat} {life : List Step} (h : overdue i life = true)
    (more : List Step) : overdue i (life ++ more) = true := by
  induction more using List.reverseRecOn with
  | nil => rwa [List.append_nil]
  | append_singleton more step ih => rw [← List.append_assoc, overdue_concat, ih, Bool.true_or]

/-- After a tick the ticker knows those who listened to it. -/
theorem audience_tick (steps : List Step) (time : UInt64) :
    ((replay steps).ticker.tick time).2.audience = listeners steps := by
  have hnext : ((replay steps).ticker.tick time).2 = (replay (steps ++ [.tick time])).ticker := by
    rw [replay_concat]
    rfl
  have hsize : subscribed (steps ++ [.tick time]) = subscribed steps := subscribed_append ..
  rw [hnext, audience_replay, hsize, listeners]
  refine List.filter_congr fun i hi => ?_
  rw [since_append (List.mem_range.mp hi), overdue_concat]
  by_cases hall : (since steps i).all (!·.ends i)
  · simp [hall, overdue_of_all hall]
  · simp [Bool.eq_false_iff.mpr hall, Step.time?]

/-! ## Every history -/

/-- **What a receiver gets in a history.**  The ticks made after it subscribed and before it ended,
each once and in their order: these are the ones it took out, then those waiting for it, then those
it left behind by going away.  As long as it has not gone away it can take out all of them.  What
others do makes no difference to it. -/
structure Gets (steps : List Step) (i : Nat) : Prop where
  whole : (replay steps).takenBy i ++ (replay steps).ticker.waiting i ++ (replay steps).lostBy i
    = heard steps i
  stayed : .drop i ∉ since steps i → (replay steps).lostBy i = []
  drained : .drop i ∉ since steps i → ∀ n, (heard steps i).length ≤ n →
    (replay (steps ++ List.replicate n (.receive i))).takenBy i = heard steps i
  alone : (replay (steps.filter (·.concerns i))).seat? i = (replay steps).seat? i

/-- **What a tick does after a history.**  It answers the number of those who listen, and from then
on the ticker knows exactly these, in the order in which it knew them before.  Whoever ended is not
known after this tick, nor ever again. -/
structure Ticks (steps : List Step) (time : UInt64) : Prop where
  count : ((replay steps).ticker.tick time).1 = (listeners steps).length
  audience : ((replay steps).ticker.tick time).2.audience = listeners steps
  kept : (listeners steps).Sublist (replay steps).ticker.audience
  forgotten : ∀ i < subscribed steps, i ∉ listeners steps → ∀ rest,
    i ∉ (replay (steps ++ .tick time :: rest)).ticker.audience

theorem gets_of_lt {steps : List Step} {i : Nat} (h : i < subscribed steps) : Gets steps i := by
  obtain ⟨p, hp, haccount⟩ := account_replay h
  have hwhole : (replay steps).takenBy i ++ (replay steps).ticker.waiting i
      ++ (replay steps).lostBy i = heard steps i := by
    rw [takenBy_of_seat? hp, waiting_of_seat? hp, lostBy_of_seat? hp]
    exact haccount.whole
  have hstayed : .drop i ∉ since steps i → (replay steps).lostBy i = [] := by
    rw [lostBy_of_seat? hp]
    exact haccount.stayed
  refine ⟨hwhole, hstayed, fun hdrop n hn => ?drained, ?alone⟩
  case drained =>
    rw [hstayed hdrop, List.append_nil] at hwhole
    have hlength : ((replay steps).ticker.waiting i).length ≤ n := by
      rw [← hwhole, List.length_append] at hn
      exact (Nat.le_add_left ..).trans hn
    rw [takenBy_replay_receive h, List.take_of_length_le hlength, hwhole]
  case alone =>
    have hfilter : i < subscribed (steps.filter (·.concerns i)) :=
      h.trans_eq (subscribed_filter_concerns steps i).symm
    rw [(tells_replay _).seat i hfilter, (tells_replay _).seat i h, since_filter_concerns,
      Seat.performAll_filter_concerns]

theorem ticks_replay (steps : List Step) (time : UInt64) : Ticks steps time where
  count := by
    rw [← audience_tick steps time, length_audience]
    rfl
  audience := audience_tick steps time
  kept := by
    rw [audience_replay, listeners]
    refine List.monotone_filter_right _ fun i hall => ?_
    rw [overdue_of_all hall]
    rfl
  forgotten i hi hnot rest := by
    have hended : (since steps i).all (!·.ends i) = false := by
      refine Bool.eq_false_iff.mpr fun hall => hnot ?_
      exact List.mem_filter.mpr ⟨List.mem_range.mpr hi, hall⟩
    have hoverdue : overdue i (since (steps ++ .tick time :: rest) i) = true := by
      rw [since_append hi, List.append_cons]
      refine overdue_append ?_ rest
      rw [overdue_concat, hended, Bool.or_eq_true]
      exact .inr rfl
    rw [audience_replay, List.mem_filter, hoverdue]
    exact fun hmem => Bool.false_ne_true hmem.2

/-- **Every tick reaches exactly those who listen.**  Over every history of subscribing, ticking,
closing, going away and taking out, every receiver gets the ticks from its subscription to its end,
and every tick counts those who are left and forgets the others for good. -/
theorem ticks_reach_listeners (steps : List Step) :
    (∀ i < subscribed steps, Gets steps i) ∧ ∀ time, Ticks steps time :=
  ⟨fun _ hi => gets_of_lt hi, ticks_replay steps⟩

/-- Two subscribe, and one of them goes away after the first tick; a third comes after the second
tick, and the first closes after the third. -/
theorem ticks_reach_listeners_of_fan_out :
    let steps : List Step :=
      [.subscribe, .subscribe, .tick 1, .drop 1, .tick 2, .subscribe, .receive 0, .tick 3, .close 0]
    (replay (steps ++ [.receive 0, .receive 0, .receive 0])).takenBy 0 = [1, 2, 3] ∧
      (replay steps).lostBy 1 = [1] ∧ ((replay steps).ticker.tick 4).1 = 1 ∧
      0 ∉ (replay (steps ++ [.tick 4, .tick 5])).ticker.audience := by
  intro steps
  have hreach := ticks_reach_listeners steps
  have hfirst := (hreach.1 0 (by decide)).drained (by decide) 3 (by decide)
  have hsecond := (hreach.1 1 (by decide)).whole
  have htick := hreach.2 4
  refine ⟨hfirst.trans (by decide), ?_, htick.count.trans (by decide), ?_⟩
  · have hnothing : (replay steps).takenBy 1 ++ (replay steps).ticker.waiting 1 = [] := by decide
    rw [hnothing, List.nil_append] at hsecond
    exact hsecond.trans (by decide)
  · exact htick.forgotten 0 (by decide) (by decide) [.tick 5]

end Ticker
end CounterWatch
