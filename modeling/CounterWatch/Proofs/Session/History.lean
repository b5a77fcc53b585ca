import CounterWatch.Proofs.Callchain.Rendering
import CounterWatch.Proofs.Ring.Queue
import CounterWatch.Proofs.Session.Shape
import Mathlib.Data.List.DropRight
import Mathlib.Data.List.Nodup

/-!
# Proofs/Session/History — what happens to samples

A ring changes when bytes are appended to it and when it is drained, and for no other reason.  So
what becomes of samples can be told from a list of what happened: what was produced, which leaves
were taken, and which collections ended.

* `Taking` — what is taken from a leaf when it is collected.
* `Happening` — something produced, a leaf taken, a collection ended; `Ring.undergo` says what it
  does to a ring, and `producedOn` what is appended.
* `Along` — a relation that holds at every step of a list; `Ring.Orderly`, `Ring.Shows`.
* `exists_split_of_mem` — among leaves that are taken, a ring is drained once.
-/

namespace CounterWatch

/-! ## Happenings -/

/-- What is taken from a leaf. -/
structure Taking where
  leaf : Leaf
  /-- The session of the leaf before. -/
  session : CpuSession
  /-- What the surroundings did during the read. -/
  meanwhile : List OutsideStep
  /-- What the read left in the buffer. -/
  bytes : Bytes
  report : Report
  /-- The records that were drained. -/
  shown : List Bytes

/-- The group with other contents of the buffer. -/
def CounterGroup.refill (g : CounterGroup) (bytes : Bytes) : CounterGroup :=
  { g with buffer := bytes }

/-- The session with other contents of the buffer. -/
def CpuSession.refill (s : CpuSession) (bytes : Bytes) : CpuSession :=
  { s with counters := s.counters.refill bytes }

namespace Taking

def leader (k : Taking) : CounterId := k.session.counters.leader

/-- The leaf, and its session before. -/
def place (k : Taking) : Leaf × CpuSession := (k.leaf, k.session)

/-- The leaf, and its session afterwards. -/
def after (k : Taking) : Leaf × CpuSession := (k.leaf, k.session.refill k.bytes)

/-- What is reported of the leaf. -/
def data (c : Callchain) (events : List String) (k : Taking) : CpuData :=
  (CpuData.ofReport events k.report).withCallchains (some (c.rendering k.shown))

end Taking

/-- What happens to rings, and what is made of them: bytes are appended to the ring of a counter, a
leaf is taken, and a collection ends, with a payload or without one. -/
inductive Happening where
  | produced (id : CounterId) (bytes : Bytes)
  | taken (k : Taking)
  | reported (p : Payload)
  | failed (e : Failure)

/-- What a step of the surroundings does to rings. -/
def OutsideStep.happenings : OutsideStep → List Happening
  | .produce id b => [.produced id b]
  | _ => []

/-- What happens while a leaf is taken. -/
def Taking.happenings (k : Taking) : List Happening :=
  k.meanwhile.flatMap OutsideStep.happenings ++ [.taken k]

/-- What a happening does to the ring of a counter. -/
def Ring.undergo (id : CounterId) (r : Ring) : Happening → Ring
  | .produced i b => if i = id then r.append b else r
  | .taken k => if k.session.sampled ∧ k.leader = id then r.emptied else r
  | .reported _ | .failed _ => r

/-- Whether a happening drains the ring of a counter. -/
def Happening.Drains (id : CounterId) : Happening → Prop
  | .taken k => k.session.sampled ∧ k.leader = id
  | .produced _ _ | .reported _ | .failed _ => False

/-- What a happening appends to the ring of a counter. -/
def Happening.appended (id : CounterId) : Happening → List Bytes
  | .produced i b => if i = id then [b] else []
  | .taken _ | .reported _ | .failed _ => []

/-- What was produced on the ring of a counter, in order. -/
def producedOn (id : CounterId) (hs : List Happening) : List Bytes :=
  hs.flatMap (Happening.appended id)

theorem producedOn_cons (id : CounterId) (h : Happening) (hs : List Happening) :
    producedOn id (h :: hs) = h.appended id ++ producedOn id hs := List.flatMap_cons

theorem producedOn_append (id : CounterId) (hs more : List Happening) :
    producedOn id (hs ++ more) = producedOn id hs ++ producedOn id more := List.flatMap_append

/-- All that the surroundings do to rings is to produce. -/
theorem OutsideStep.produced_of_mem {step : OutsideStep} {x : Happening} (h : x ∈ step.happenings) :
    ∃ id b, x = .produced id b := by
  cases step with
  | produce id b => exact ⟨id, b, List.mem_singleton.mp h⟩
  | command | tick | dropControl | dropTicker | dropSink => cases h

theorem produced_of_mem_happenings {steps : List OutsideStep} {x : Happening}
    (h : x ∈ steps.flatMap OutsideStep.happenings) : ∃ id b, x = .produced id b := by
  obtain ⟨step, -, hstep⟩ := List.mem_flatMap.mp h
  exact step.produced_of_mem hstep

/-- The surroundings drain no ring. -/
theorem not_drains_of_mem_happenings {id : CounterId} {steps : List OutsideStep} {x : Happening}
    (h : x ∈ steps.flatMap OutsideStep.happenings) : ¬ x.Drains id := by
  obtain ⟨i, b, rfl⟩ := produced_of_mem_happenings h
  exact not_false

/-- **A ring that is not drained** has appended to it what was produced, and nothing else happens to
it. -/
theorem Ring.foldl_undergo_of_not_drains {id : CounterId} {hs : List Happening}
    (h : ∀ x ∈ hs, ¬ x.Drains id) (r : Ring) :
    hs.foldl (undergo id) r = (producedOn id hs).foldl append r := by
  induction hs generalizing r with
  | nil => rfl
  | cons x rest ih =>
      obtain ⟨hx, hrest⟩ := List.forall_mem_cons.mp h
      have hfirst : r.undergo id x = (x.appended id).foldl append r := by
        cases x with
        | produced i b => rw [undergo, Happening.appended]; split <;> rfl
        | taken k => exact if_neg hx
        | reported | failed => rfl
      rw [List.foldl_cons, ih hrest, hfirst, producedOn_cons, List.foldl_append]

/-- Every step of a list is in a relation to the state that it comes upon. -/
def Along {α β : Type} (step : α → β → α) (P : α → β → Prop) : α → List β → Prop
  | _, [] => True
  | a, b :: bs => P a b ∧ Along step P (step a b) bs

section

variable {α β : Type} {step : α → β → α} {P : α → β → Prop}

/-- A relation holds along a list if it holds along the beginning, and along the rest from where the
beginning leads. -/
theorem along_append {bs more : List β} {a : α} :
    Along step P a (bs ++ more) ↔ Along step P a bs ∧ Along step P (bs.foldl step a) more := by
  induction bs generalizing a with
  | nil => exact (and_iff_right trivial).symm
  | cons b rest ih => rw [List.cons_append, Along, Along, ih, and_assoc, List.foldl_cons]

theorem along_of_forall {bs : List β} (h : ∀ b ∈ bs, ∀ a, P a b) (a : α) : Along step P a bs := by
  induction bs generalizing a with
  | nil => trivial
  | cons b rest ih =>
      obtain ⟨hb, hrest⟩ := List.forall_mem_cons.mp h
      exact ⟨hb a, ih hrest _⟩

/-- A step in the middle is in the relation to the state that the steps before it lead to. -/
theorem Along.of_append_cons {before after : List β} {a : α} {b : β}
    (h : Along step P a (before ++ b :: after)) : P (before.foldl step a) b :=
  (along_append.mp h).2.1

end

/-- Whatever is appended to a ring is a record, and there is room for it when it is. -/
def Ring.Orderly (id : CounterId) : Ring → List Happening → Prop :=
  Along (undergo id) fun r x => ∀ b ∈ x.appended id, IsRecord b ∧ b.length ≤ r.free

/-- Whatever is taken from a ring is what it shows when it is. -/
def Ring.Shows (id : CounterId) : Ring → List Happening → Prop :=
  Along (undergo id) fun r x => ∀ k, x = .taken k → x.Drains id → k.shown = r.shown

/-- Nothing is taken from a ring that is not drained. -/
theorem Ring.shows_of_not_drains {id : CounterId} {hs : List Happening}
    (h : ∀ x ∈ hs, ¬ x.Drains id) (r : Ring) : r.Shows id hs :=
  along_of_forall (fun x hx _ _ _ hdrains => absurd hdrains (h x hx)) r

/-- A producer never moves the tail. -/
theorem Ring.tail_foldl_append (bs : List Bytes) (r : Ring) :
    (bs.foldl append r).tail = r.tail := by
  induction bs generalizing r with
  | nil => rfl
  | cons b rest ih => rw [List.foldl_cons, ih, append, tail_write]

/-- Taking a leaf drains no ring but that of its leader. -/
theorem Taking.not_drains {k : Taking} {id : CounterId} (h : k.leader ≠ id) :
    ∀ x ∈ k.happenings, ¬ x.Drains id := by
  intro x hx
  rcases List.mem_append.mp hx with hx | hx
  · exact not_drains_of_mem_happenings hx
  · rw [List.mem_singleton.mp hx]
    exact fun hdrains => h hdrains.2

/-- Taking leaves drains no ring but theirs. -/
theorem not_drains_of_forall_ne {ks : List Taking} {id : CounterId} (h : ∀ k ∈ ks, k.leader ≠ id) :
    ∀ x ∈ ks.flatMap Taking.happenings, ¬ x.Drains id := by
  intro x hx
  obtain ⟨k, hk, hx⟩ := List.mem_flatMap.mp hx
  exact k.not_drains (h k hk) x hx

/-- What happens when leaves are taken is that they are, and that something is produced. -/
theorem produced_or_taken_of_mem {ks : List Taking} {x : Happening}
    (h : x ∈ ks.flatMap Taking.happenings) :
    (∃ id b, x = .produced id b) ∨ ∃ k ∈ ks, x = .taken k := by
  obtain ⟨k, hk, hx⟩ := List.mem_flatMap.mp h
  rcases List.mem_append.mp hx with hx | hx
  · exact .inl (produced_of_mem_happenings hx)
  · exact .inr ⟨k, hk, List.mem_singleton.mp hx⟩

/-- **A leaf among several is taken once**, if no other has its leader. -/
theorem exists_split_of_mem {ks : List Taking} (hnodup : (ks.map Taking.leader).Nodup) {k : Taking}
    (hk : k ∈ ks) : ∃ before since, ks.flatMap Taking.happenings = before ++ .taken k :: since ∧
      (∀ x ∈ before, ¬ x.Drains k.leader) ∧ ∀ x ∈ since, ¬ x.Drains k.leader := by
  obtain ⟨earlier, later, rfl⟩ := List.append_of_mem hk
  rw [List.map_append, List.map_cons, List.nodup_middle, List.nodup_cons, List.mem_append,
    List.mem_map, List.mem_map] at hnodup
  obtain ⟨hfirst, hlast⟩ := not_or.mp hnodup.1
  -- what happens during the read of a leaf comes before it is taken
  refine ⟨earlier.flatMap Taking.happenings ++ k.meanwhile.flatMap OutsideStep.happenings,
    later.flatMap Taking.happenings, ?_, fun x hx => ?_, ?_⟩
  · simp only [List.flatMap_append, List.flatMap_cons, Taking.happenings, List.append_assoc,
      List.cons_append, List.nil_append]
  · rcases List.mem_append.mp hx with hx | hx
    · exact not_drains_of_forall_ne (fun k' hk' heq => hfirst ⟨k', hk', heq⟩) x hx
    · exact not_drains_of_mem_happenings hx
  · exact not_drains_of_forall_ne fun k' hk' heq => hlast ⟨k', hk', heq⟩

/-! ## What waits -/

/-- What a happening does to the records that wait in the ring of a counter. -/
def Happening.queue (id : CounterId) (records : List Bytes) : Happening → List Bytes
  | .produced i b => if i = id then records ++ [b] else records
  | .taken k => if k.session.sampled ∧ k.leader = id then [] else records
  | .reported _ | .failed _ => records

/-- **What waits in a ring** after all this: what was produced on it since it was drained. -/
def waiting (id : CounterId) (hs : List Happening) : List Bytes :=
  hs.foldl (Happening.queue id) []

/-- What is appended to a ring that is not drained waits behind the others. -/
theorem queue_of_not_drains {id : CounterId} {x : Happening} (h : ¬ x.Drains id)
    (records : List Bytes) : x.queue id records = records ++ x.appended id := by
  cases x with
  | produced i b =>
      rw [Happening.queue, Happening.appended]
      split
      · rfl
      · exact (List.append_nil _).symm
  | taken k => exact (if_neg h).trans (List.append_nil _).symm
  | reported | failed => exact (List.append_nil _).symm

theorem queue_of_drains {id : CounterId} {x : Happening} (h : x.Drains id) (records : List Bytes) :
    x.queue id records = [] := by
  cases x with
  | taken k => exact if_pos h
  | produced | reported | failed => cases h

/-- As long as a ring is not drained, all that is produced on it waits there. -/
theorem waiting_append_of_not_drains {id : CounterId} (hs : List Happening) {more : List Happening}
    (h : ∀ x ∈ more, ¬ x.Drains id) :
    waiting id (hs ++ more) = waiting id hs ++ producedOn id more := by
  have hqueue : ∀ records, more.foldl (Happening.queue id) records
      = records ++ producedOn id more := by
    induction more with
    | nil => exact fun records => (List.append_nil records).symm
    | cons x rest ih =>
        obtain ⟨hx, hrest⟩ := List.forall_mem_cons.mp h
        intro records
        rw [List.foldl_cons, queue_of_not_drains hx, ih hrest, producedOn_cons, List.append_assoc]
  rw [waiting, List.foldl_append]
  exact hqueue _

/-- Once a ring is drained, what waits is what was produced since. -/
theorem waiting_of_drained {id : CounterId} (hs : List Happening) {x : Happening}
    (hx : x.Drains id) {since : List Happening} (h : ∀ x ∈ since, ¬ x.Drains id) :
    waiting id (hs ++ x :: since) = producedOn id since := by
  have hempty : waiting id (hs ++ [x]) = [] := by
    rw [waiting, List.foldl_append]
    exact queue_of_drains hx _
  rw [← List.singleton_append, ← List.append_assoc, waiting_append_of_not_drains _ h, hempty]
  rfl

namespace Ring.Queued

variable {id : CounterId} {r : Ring} {records : List Bytes}

/-- **A ring is a queue**: whatever happens to it happens to the records that wait in it. -/
theorem undergo (h : r.Queued records) {x : Happening}
    (hx : ∀ b ∈ x.appended id, IsRecord b ∧ b.length ≤ r.free) :
    (r.undergo id x).Queued (x.queue id records) := by
  cases x with
  | produced i b =>
      rw [Ring.undergo, Happening.queue]
      split
      next hi =>
        have hb : b ∈ Happening.appended id (.produced i b) := by
          rw [Happening.appended, if_pos hi]
          exact List.mem_singleton.mpr rfl
        exact h.append (hx b hb).1 (hx b hb).2
      next => exact h
  | taken k =>
      rw [Ring.undergo, Happening.queue]
      split
      · exact h.emptied
      · exact h
  | reported | failed => exact h

/-- **A ring holds the records that wait**, whatever happens to it in an orderly way. -/
theorem foldl_undergo {hs : List Happening} (h : r.Queued records) (horderly : r.Orderly id hs) :
    (hs.foldl (Ring.undergo id) r).Queued (hs.foldl (Happening.queue id) records) := by
  induction hs generalizing r records with
  | nil => exact h
  | cons x rest ih => exact ih (h.undergo horderly.1) horderly.2

end Ring.Queued

/-- **What is taken from a ring is what waits there**: the records produced since it was drained
before, each once and in order. -/
theorem shown_eq_waiting {id : CounterId} {r : Ring} (hempty : r.Queued [])
    {before after : List Happening} {k : Taking}
    (horderly : r.Orderly id (before ++ .taken k :: after))
    (hshows : r.Shows id (before ++ .taken k :: after)) (hdrains : (Happening.taken k).Drains id) :
    k.shown = waiting id before := by
  have hqueued := hempty.foldl_undergo (along_append.mp horderly).1
  rw [hshows.of_append_cons k rfl hdrains]
  exact hqueued.shown_eq

/-! ## Collections -/

/-- Whether a collection ends. -/
def Happening.ends : Happening → Bool
  | .reported _ | .failed _ => true
  | .produced _ _ | .taken _ => false

/-- The end of a collection does nothing to a ring. -/
theorem Happening.not_drains_of_ends {x : Happening} (h : x.ends = true) (id : CounterId) :
    ¬ x.Drains id := by
  cases x with
  | reported | failed => exact not_false
  | produced | taken => cases h

theorem ends_of_mem_taking {ks : List Taking} {x : Happening}
    (h : x ∈ ks.flatMap Taking.happenings) : x.ends = false := by
  rcases produced_or_taken_of_mem h with ⟨i, b, rfl⟩ | ⟨k, -, rfl⟩
  · rfl
  · rfl

theorem ends_of_mem_taking_append {ks : List Taking} {steps : List OutsideStep} {x : Happening}
    (h : x ∈ ks.flatMap Taking.happenings ++ steps.flatMap OutsideStep.happenings) :
    x.ends = false := by
  rcases List.mem_append.mp h with h | h
  · exact ends_of_mem_taking h
  · obtain ⟨i, b, rfl⟩ := produced_of_mem_happenings h
    rfl

/-- What has happened since a collection ended. -/
def current (hs : List Happening) : List Happening := hs.rtakeWhile fun x => !x.ends

/-- What had happened when a collection ended. -/
def settled (hs : List Happening) : List Happening := hs.rdropWhile fun x => !x.ends

/-- What happened is what had happened when a collection ended, and what has happened since. -/
theorem settled_append_current (hs : List Happening) : settled hs ++ current hs = hs :=
  List.rdropWhile_append_rtakeWhile

/-- Until a collection ends, what happens belongs to the current one. -/
theorem current_append {hs more : List Happening} (h : ∀ x ∈ more, x.ends = false) :
    current (hs ++ more) = current hs ++ more := by
  rw [current, List.rtakeWhile, List.reverse_append, List.takeWhile_append_of_pos]
  · rw [List.reverse_append, List.reverse_reverse]
    rfl
  · intro x hx
    rw [h x (List.mem_reverse.mp hx)]
    rfl

theorem current_concat {hs : List Happening} {x : Happening} (h : x.ends = true) :
    current (hs ++ [x]) = [] :=
  List.rtakeWhile_concat_neg _ _ _ (by rw [h]; decide)

/-- Something holds whenever a collection ends, of the end and of what came before it. -/
def AtEnds (P : List Happening → Happening → Prop) : List Happening → List Happening → Prop :=
  Along (fun before x => before ++ [x]) fun before x => x.ends = true → P before x

section AtEnds

variable {P : List Happening → Happening → Prop} {before more more' : List Happening}
  {x : Happening}

/-- What holds whenever a collection ends can be told of a beginning, and of the rest with that
before it. -/
theorem atEnds_append :
    AtEnds P before (more ++ more') ↔ AtEnds P before more ∧ AtEnds P (before ++ more) more' := by
  rw [AtEnds, along_append, Ring.foldl_concat]

theorem atEnds_of_goes (h : ∀ x ∈ more, x.ends = false) : AtEnds P before more :=
  along_of_forall (fun x hx _ hends => by rw [h x hx] at hends; cases hends) before

/-- The end of a collection is the one place where something is asked. -/
theorem atEnds_concat (h : ∀ x ∈ more, x.ends = false) (hx : P (before ++ more) x) :
    AtEnds P before (more ++ [x]) :=
  atEnds_append.mpr ⟨atEnds_of_goes h, fun _ => hx, trivial⟩

theorem AtEnds.of_append_cons {after : List Happening} (h : AtEnds P [] (before ++ x :: after))
    (hends : x.ends = true) : P before x := by
  have hx := Along.of_append_cons h hends
  rwa [Ring.foldl_concat] at hx

end AtEnds

end CounterWatch
