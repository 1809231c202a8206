import FileWatch.Proofs.Native.Handles

/-! # Starting — a second call of `start` has nothing left to do

A call of `start` is a detection cycle and then a resume, and each of them makes one attempt to open
a handle at most. What either makes of the watch depends on the disk and on whether handles open,
and on nothing else of the world (`rearmIfPending_of_concur`, `resume_of_concur`). So where the
attempts of two calls all come to the same end, the first call leaves a watch for which neither part
of the second has anything to do: a cycle leaves nothing to another one (`rearmIfPending_spent`), a
resume leaves nothing to another one (`resume_spent`), and a resume gives no new work to a cycle that
had nothing to do (`rearmIfPending_resume`).

A failure of a native handle happens once in a `World`. One that lasts is armed again before each
attempt, and `startUnder` is a call of `start` under such failures.
-/

namespace FileWatch

namespace World

/-- Worlds with the same disk, in which native handles open alike. -/
structure Concur (a b : World) : Prop where
  disk : b.disk = a.disk
  opens : b.opensHandles = a.opensHandles

/-- The world in which the next attempt to open a handle meets these failures, or none. -/
def armed (world : World) (openFault registerFault : Option NativeError) : World :=
  { world with openFault, registerFault }

@[simp] theorem disk_armed (world : World) (o g : Option NativeError) :
    (world.armed o g).disk = world.disk := rfl

theorem armed_self (world : World) : world.armed world.openFault world.registerFault = world := rfl

theorem concur_armed {a b : World} {o g : Option NativeError} (h : b.disk = a.disk) :
    (a.armed o g).Concur (b.armed o g) := ⟨h, rfl⟩

/-- What an attempt to open a handle leaves in a world as it was. It causes no failure, and meets
one at most: a failure to open hides the one to register. -/
structure Attempted (before after : World) : Prop where
  disk : after.disk = before.disk
  opens : before.opensHandles = true → after.opensHandles = true
  fails : before.openFault.isSome = true → before.registerFault.isSome = true →
    after.opensHandles = false

theorem Attempted.refl (world : World) : world.Attempted world where
  disk := rfl
  opens := id
  fails := by
    intro hopen _
    rw [opensHandles, Option.isNone_eq_false_iff.mpr hopen, Bool.false_and]

theorem Attempted.note {before after : World} (h : before.Attempted after) (e : JournalEntry) :
    before.Attempted (after.note e) := ⟨h.disk, h.opens, h.fails⟩

theorem Attempted.of_note {before after : World} {e : JournalEntry}
    (h : (before.note e).Attempted after) : before.Attempted after := ⟨h.disk, h.opens, h.fails⟩

theorem attempted_acquire (world : World) (root : Path) (recursive : Bool) :
    world.Attempted (world.acquire root recursive).2 where
  disk := disk_acquire world root recursive
  opens := by
    intro hopens
    rw [acquire_of_opens hopens]
    exact hopens
  fails := by
    intro hopen hregister
    obtain ⟨e, he⟩ := Option.isSome_iff_exists.mp hopen
    obtain ⟨e', he'⟩ := Option.isSome_iff_exists.mp hregister
    simp [acquire, he, he', opensHandles, note]

end World

namespace NativeWatch

variable (p : NativePolicy)

/-- A call of `start` in which every attempt to open a handle meets the same failures, or none. -/
def startUnder (openFault registerFault : Option NativeError) (w : NativeWatch) (world : World) :
    NativeWatch × World :=
  let (w, world) := rearmIfPending p w (world.armed openFault registerFault)
  resume p w (world.armed openFault registerFault)

/-- The root that an attempt to open a handle ends with, if it succeeds. -/
def reached? (world : World) (r : WatchRequest) : Option Path :=
  if world.opensHandles then (p.validate world.disk r).toOption else none

variable {p} {w : NativeWatch} {world a b : World} {r : WatchRequest} {root : Path}

/-! ### What the parts of a call read of the world -/

/-- What a detection cycle goes by. -/
theorem rearm_cases (p : NativePolicy) (w : NativeWatch) (d : Disk) :
    w.rearmPending = false
      ∨ w.rearmPending = true ∧ (w.request = none
        ∨ ∃ r, w.request = some r
          ∧ ((∃ e, p.validate d r = .error e) ∨ ∃ root, p.validate d r = .ok root)) := by
  by_cases hpending : w.rearmPending = true
  · right
    refine ⟨hpending, ?_⟩
    rcases hr : w.request with _ | r
    · exact .inl rfl
    · right
      refine ⟨r, rfl, ?_⟩
      rcases hvalid : p.validate d r with e | root
      · exact .inl ⟨e, rfl⟩
      · exact .inr ⟨root, rfl⟩
  · exact .inl (Bool.eq_false_iff.mpr hpending)

/-- What a resume goes by. -/
theorem silent_cases (w : NativeWatch) :
    w.listener.isSome = true
      ∨ w.listener = none ∧ (w.request = none ∨ ∃ r, w.request = some r) := by
  rcases hl : w.listener with _ | l
  · right
    refine ⟨rfl, ?_⟩
    rcases w.request with _ | r
    · exact .inl rfl
    · exact .inr ⟨r, rfl⟩
  · exact .inl rfl

theorem toOption_attempt (world : World) (r : WatchRequest) :
    (attempt p world r).1.toOption = reached? p world r := by
  unfold reached?
  rcases hattempt : attempt p world r with ⟨e | root, after⟩
  · rcases attempt_error hattempt with ⟨hvalid, -⟩ | ⟨root, -, hopens, -⟩
    · simp [hvalid, Except.toOption]
    · simp [hopens, Except.toOption]
  · obtain ⟨hvalid, hopens, -⟩ := attempt_ok_iff.mp hattempt
    simp [hvalid, hopens, Except.toOption]

/-- A pending rearm makes a detection cycle an attempt to open a handle. -/
theorem reopened?_of_pending (hpending : w.rearmPending = true) (hr : w.request = some r) :
    w.reopened? p world = reached? p world r := by
  simp [reopened?, reached?, hpending, hr]

/-- What a resume makes of a watch without a handle. -/
theorem resume_fst (hsilent : w.listener = none) (hr : w.request = some r) :
    (resume p w world).1 =
      ((reached? p world r).map (w.opened p r)).getD { w with stage := .idle } := by
  rw [resume_of_silent world hsilent hr, ← toOption_attempt]
  rcases attempt p world r with ⟨e | root, after⟩ <;> rfl

/-- What a detection cycle makes of a watch whose rearm is pending on a valid target. -/
theorem rearmIfPending_fst (hpending : w.rearmPending = true) (hr : w.request = some r)
    (hvalid : p.validate world.disk r = .ok root) :
    (rearmIfPending p w world).1 =
      if world.opensHandles then
        { w.opened p r root with rearmPending := false, queue := w.queue.push ⟨.added, root⟩ }
      else w.closed := by
  by_cases hopens : world.opensHandles = true
  · rw [rearmIfPending_of_opens hpending hr hvalid hopens, if_pos hopens]
  · obtain ⟨e, he⟩ :=
      rearmIfPending_of_not_opens hpending hr hvalid (Bool.eq_false_iff.mpr hopens)
    rw [he, if_neg hopens]

theorem resume_of_concur (h : a.Concur b) : (resume p w b).1 = (resume p w a).1 := by
  have hreached (r : WatchRequest) : reached? p b r = reached? p a r := by
    rw [reached?, reached?, h.disk, h.opens]
  rcases silent_cases w with hlistens | ⟨hsilent, hr | ⟨r, hr⟩⟩
  · rw [resume_of_listening b hlistens, resume_of_listening a hlistens]
  · rw [resume_of_unrequested b hr, resume_of_unrequested a hr]
  · rw [resume_fst hsilent hr, resume_fst hsilent hr, hreached]

theorem rearmIfPending_of_concur (h : a.Concur b) :
    (rearmIfPending p w b).1 = (rearmIfPending p w a).1 := by
  rcases rearm_cases p w a.disk with
    hsettled | ⟨hpending, hr | ⟨r, hr, ⟨e, hvalid⟩ | ⟨root, hvalid⟩⟩⟩
  · rw [rearmIfPending_of_settled b hsettled, rearmIfPending_of_settled a hsettled]
  · rw [rearmIfPending_of_unrequested b hpending hr, rearmIfPending_of_unrequested a hpending hr]
  · rw [rearmIfPending_of_invalid hpending hr hvalid,
      rearmIfPending_of_invalid hpending hr (h.disk ▸ hvalid)]
  · rw [rearmIfPending_fst hpending hr hvalid,
      rearmIfPending_fst hpending hr (h.disk ▸ hvalid), h.opens]

/-! ### What the parts of a call leave to others -/

/-- A detection cycle leaves nothing to another one. -/
theorem rearmIfPending_spent (w : NativeWatch) (world : World) :
    (rearmIfPending p (rearmIfPending p w world).1 world).1 = (rearmIfPending p w world).1 := by
  rcases rearm_cases p w world.disk with
    hsettled | ⟨hpending, hr | ⟨r, hr, ⟨e, hvalid⟩ | ⟨root, hvalid⟩⟩⟩
  · rw [rearmIfPending_of_settled world hsettled, rearmIfPending_of_settled world hsettled]
  · rw [rearmIfPending_of_unrequested world hpending hr, rearmIfPending_of_settled world rfl]
  · rw [rearmIfPending_of_invalid hpending hr hvalid, rearmIfPending_of_invalid hpending hr hvalid]
  · rw [rearmIfPending_fst hpending hr hvalid]
    by_cases hopens : world.opensHandles = true
    · rw [if_pos hopens, rearmIfPending_of_settled world rfl]
    · -- the handle is closed by now, and to close it again changes nothing
      rw [if_neg hopens, rearmIfPending_fst (w := w.closed) hpending hr hvalid, if_neg hopens]
      rfl

/-- A resume leaves nothing to another one. -/
theorem resume_spent (w : NativeWatch) (world : World) :
    (resume p (resume p w world).1 world).1 = (resume p w world).1 := by
  rcases silent_cases w with hlistens | ⟨hsilent, hr | ⟨r, hr⟩⟩
  · rw [resume_of_listening world hlistens, resume_of_listening world hlistens]
  · rw [resume_of_unrequested world hr, resume_of_unrequested world hr]
  · rw [resume_fst hsilent hr]
    rcases hreached : reached? p world r with _ | root
    · have hidle : ({ w with stage := .idle } : NativeWatch).listener = none := hsilent
      rw [Option.map_none, Option.getD_none, resume_fst hidle hr, hreached]
      rfl
    · rw [Option.map_some, Option.getD_some, resume_of_listening world rfl]

/-- A cycle that has nothing to do does not rearm on any root. -/
theorem reopened?_of_spent (hspent : (rearmIfPending p w world).1 = w) :
    w.reopened? p world = none := by
  rcases rearmIfPending_outcome (p := p) w world with
    ⟨root, -, hpending, hsettled, -⟩ | ⟨hreopened, -⟩
  · rw [hspent, hpending] at hsettled
    cases hsettled
  · exact hreopened

/-- A resume that opens no handle gives no work to a cycle that had nothing to do. -/
theorem rearmIfPending_of_idle (hspent : (rearmIfPending p w world).1 = w) :
    (rearmIfPending p { w with stage := .idle } world).1 = { w with stage := .idle } := by
  rcases rearm_cases p w world.disk with
    hsettled | ⟨hpending, hr | ⟨r, hr, ⟨e, hvalid⟩ | ⟨root, hvalid⟩⟩⟩
  · rw [rearmIfPending_of_settled (w := { w with stage := .idle }) world hsettled]
  · rw [rearmIfPending_of_unrequested world hpending hr] at hspent
    rw [← hspent] at hpending
    cases hpending
  · rw [rearmIfPending_of_invalid (w := { w with stage := .idle }) hpending hr hvalid]
  · rw [rearmIfPending_fst hpending hr hvalid] at hspent
    rw [rearmIfPending_fst (w := { w with stage := .idle }) hpending hr hvalid]
    by_cases hopens : world.opensHandles = true
    · rw [if_pos hopens] at hspent
      rw [← hspent] at hpending
      cases hpending
    · rw [if_neg hopens] at hspent
      rw [if_neg hopens, ← hspent]
      rfl

/-- A resume gives no work to a detection cycle that had nothing to do. -/
theorem rearmIfPending_resume (hspent : (rearmIfPending p w world).1 = w) :
    (rearmIfPending p (resume p w world).1 world).1 = (resume p w world).1 := by
  rcases silent_cases w with hlistens | ⟨hsilent, hr | ⟨r, hr⟩⟩
  · rw [resume_of_listening world hlistens, hspent]
  · rw [resume_of_unrequested world hr, hspent]
  · rw [resume_fst hsilent hr]
    rcases hreached : reached? p world r with _ | root
    · exact rearmIfPending_of_idle hspent
    · rw [Option.map_some, Option.getD_some]
      by_cases hpending : w.rearmPending = true
      · -- the cycle would have had its work
        have hreopened := reopened?_of_spent hspent
        rw [reopened?_of_pending hpending hr, hreached] at hreopened
        cases hreopened
      · have hsettled : w.rearmPending = false := Bool.eq_false_iff.mpr hpending
        exact congrArg Prod.fst (rearmIfPending_of_settled (w := w.opened p r root) world hsettled)

/-! ### What the parts of a call leave of the world -/

theorem attempted_attempt (world : World) (r : WatchRequest) :
    world.Attempted (attempt p world r).2 := by
  rcases hattempt : attempt p world r with ⟨e | root, after⟩
  · rcases attempt_error hattempt with ⟨-, rfl⟩ | ⟨root, -, -, rfl⟩
    · exact .refl after
    · exact world.attempted_acquire root r.options.recursive
  · obtain ⟨-, hopens, rfl⟩ := attempt_ok_iff.mp hattempt
    have hacquired := world.attempted_acquire root r.options.recursive
    rwa [World.acquire_of_opens hopens] at hacquired

theorem attempted_rearmIfPending (w : NativeWatch) (world : World) :
    world.Attempted (rearmIfPending p w world).2 := by
  rcases rearm_cases p w world.disk with
    hsettled | ⟨hpending, hr | ⟨r, hr, ⟨e, hvalid⟩ | ⟨root, hvalid⟩⟩⟩
  · rw [rearmIfPending_of_settled world hsettled]
    exact .refl world
  · rw [rearmIfPending_of_unrequested world hpending hr]
    exact .refl world
  · rw [rearmIfPending_of_invalid hpending hr hvalid]
    exact (World.Attempted.refl world).note (.refused e)
  · rw [rearmIfPending_of_valid hpending hr hvalid]
    have hattempted := attempted_attempt (p := p) (w.released world) r
    generalize attempt p (w.released world) r = outcome at hattempted ⊢
    have hreleased : world.Attempted outcome.2 := by
      unfold released at hattempted
      split at hattempted
      · exact hattempted.of_note
      · exact hattempted
    rcases outcome with ⟨e | root, after⟩
    · exact hreleased.note (.refused e)
    · exact hreleased

theorem disk_resume (w : NativeWatch) (world : World) :
    (resume p w world).2.disk = world.disk := by
  rcases silent_cases w with hlistens | ⟨hsilent, hr | ⟨r, hr⟩⟩
  · rw [resume_of_listening world hlistens]
  · rw [resume_of_unrequested world hr]
  · rw [resume_of_silent world hsilent hr]
    have hdisk := (attempted_attempt (p := p) world r).disk
    generalize attempt p world r = outcome at hdisk ⊢
    rcases outcome with ⟨e | root, after⟩ <;> exact hdisk

theorem handlesOpened_attempt_error {e : WatchError} (h : attempt p world r = (.error e, a)) :
    a.handlesOpened = world.handlesOpened := by
  rcases attempt_error h with ⟨-, rfl⟩ | ⟨root, -, hopens, rfl⟩
  · rfl
  · exact World.handlesOpened_acquire_of_not_opens hopens root r.options.recursive

/-- A resume that has nothing to do opens no handle. -/
theorem handlesOpened_resume_of_spent (hspent : (resume p w world).1 = w) :
    (resume p w world).2.handlesOpened = world.handlesOpened := by
  rcases silent_cases w with hlistens | ⟨hsilent, hr | ⟨r, hr⟩⟩
  · rw [resume_of_listening world hlistens]
  · rw [resume_of_unrequested world hr]
  · rw [resume_of_silent world hsilent hr] at hspent ⊢
    rcases hattempt : attempt p world r with ⟨e | root, after⟩
    · have hopened := handlesOpened_attempt_error hattempt
      show (after.note (.refused e)).handlesOpened = world.handlesOpened
      rw [World.handlesOpened_note, hopened]
      rfl
    · -- a watch for which a handle was opened listens
      rw [hattempt] at hspent
      rw [← hspent] at hsilent
      cases hsilent

/-- A detection cycle that has nothing to do for a watch with a handle does nothing in the world but
to write down why it could not rearm. -/
theorem journal_rearmIfPending_of_spent (hspent : (rearmIfPending p w world).1 = w)
    (hlistens : w.listener.isSome = true) :
    ∃ refusals : List WatchError,
      (rearmIfPending p w world).2.journal = world.journal ++ refusals.map .refused := by
  rcases rearm_cases p w world.disk with
    hsettled | ⟨hpending, hr | ⟨r, hr, ⟨e, hvalid⟩ | ⟨root, hvalid⟩⟩⟩
  · rw [rearmIfPending_of_settled world hsettled]
    exact ⟨[], by simp⟩
  · rw [rearmIfPending_of_unrequested world hpending hr]
    exact ⟨[], by simp⟩
  · rw [rearmIfPending_of_invalid hpending hr hvalid]
    exact ⟨[e], rfl⟩
  · -- a cycle that tries to open a handle settles the rearm or closes the handle
    rw [rearmIfPending_fst hpending hr hvalid] at hspent
    by_cases hopens : world.opensHandles = true
    · rw [if_pos hopens] at hspent
      rw [← hspent] at hpending
      cases hpending
    · rw [if_neg hopens] at hspent
      rw [← hspent] at hlistens
      cases hlistens

/-! ### Two calls -/

theorem startUnder_eq (o g : Option NativeError) (w : NativeWatch) (world : World) :
    w.startUnder p o g world =
      resume p (rearmIfPending p w (world.armed o g)).1
        ((rearmIfPending p w (world.armed o g)).2.armed o g) := rfl

/-- What a call makes of a watch, with both of its parts in one world. -/
theorem startUnder_fst (o g : Option NativeError) (w : NativeWatch) (world : World) :
    (w.startUnder p o g world).1 =
      (resume p (rearmIfPending p w (world.armed o g)).1 (world.armed o g)).1 := by
  have hdisk := (attempted_rearmIfPending (p := p) w (world.armed o g)).disk
  rw [startUnder_eq]
  exact resume_of_concur (World.concur_armed hdisk)

theorem disk_startUnder (o g : Option NativeError) (w : NativeWatch) (world : World) :
    (w.startUnder p o g world).2.disk = world.disk := by
  rw [startUnder_eq, disk_resume, World.disk_armed, (attempted_rearmIfPending w _).disk,
    World.disk_armed]

/-- Neither part of a call has anything to do for the watch that a call left. -/
theorem startUnder_spent (o g : Option NativeError) (w : NativeWatch) (world : World) :
    (rearmIfPending p (w.startUnder p o g world).1 (world.armed o g)).1 =
        (w.startUnder p o g world).1
      ∧ (resume p (w.startUnder p o g world).1 (world.armed o g)).1 =
        (w.startUnder p o g world).1 := by
  rw [startUnder_fst]
  exact ⟨rearmIfPending_resume (rearmIfPending_spent w _), resume_spent _ _⟩

/-- Where handles open, a call is one of `start`. -/
theorem startUnder_none (w : NativeWatch) (world : World) :
    w.startUnder p none none world = w.start p (world.armed none none) := by
  have hopens := (attempted_rearmIfPending (p := p) w (world.armed none none)).opens rfl
  obtain ⟨hopen, hregister⟩ :
      (rearmIfPending p w (world.armed none none)).2.openFault = none
        ∧ (rearmIfPending p w (world.armed none none)).2.registerFault = none := by
    simpa [World.opensHandles] using hopens
  have harmed : (rearmIfPending p w (world.armed none none)).2.armed none none =
      (rearmIfPending p w (world.armed none none)).2 := by
    have hself := World.armed_self (rearmIfPending p w (world.armed none none)).2
    rwa [hopen, hregister] at hself
  rw [startUnder_eq, harmed, start_eq]

/-- Where no handle opens, it makes no difference which failure an attempt meets. -/
theorem startUnder_of_fails {o g : Option NativeError} (h : o.isSome = true ∨ g.isSome = true)
    (e e' : NativeError) (w : NativeWatch) (world : World) :
    (w.start p (world.armed (some e) (some e'))).1 = (w.startUnder p o g world).1 := by
  have hfails : (world.armed o g).opensHandles = false := by
    rcases h with ho | hg
    · simp [World.opensHandles, World.armed, Option.isNone_eq_false_iff.mpr ho]
    · simp [World.opensHandles, World.armed, Option.isNone_eq_false_iff.mpr hg]
  have hattempted := attempted_rearmIfPending (p := p) w (world.armed (some e) (some e'))
  have hfirst : (world.armed o g).Concur (world.armed (some e) (some e')) :=
    ⟨rfl, hfails.symm⟩
  have hsecond : (world.armed o g).Concur
      (rearmIfPending p w (world.armed (some e) (some e'))).2 :=
    ⟨hattempted.disk, (hattempted.fails rfl rfl).trans hfails.symm⟩
  rw [start_eq, resume_of_concur hsecond, rearmIfPending_of_concur hfirst, startUnder_fst]

/-- Calls of `start` are idempotent while attempts to open a handle all come to the same end. The
second of two calls leaves the watch as it is and opens no handle that stays open, and for a watch
that has a handle by then it does nothing in the world but to write down why it could not rearm.

Where handles open, both are calls of `start` as they are. Where none opens, a call of `start` that
meets a failure in each of its attempts makes the same of the watch. -/
theorem start_idempotent (o g : Option NativeError) (w : NativeWatch) (world : World) :
    let once := w.startUnder p o g world
    let twice := once.1.startUnder p o g once.2
    twice.1 = once.1
      ∧ twice.2.handlesOpened = once.2.handlesOpened
      ∧ (once.1.listener.isSome = true →
        ∃ refusals : List WatchError, twice.2.journal = once.2.journal ++ refusals.map .refused)
      ∧ (o = none → g = none → once = w.start p (world.armed none none))
      ∧ ∀ e e', o.isSome = true ∨ g.isSome = true →
        (w.start p (world.armed (some e) (some e'))).1 = once.1 := by
  intro once twice
  obtain ⟨hcycle, hresume⟩ := startUnder_spent (p := p) o g w world
  have hdisk : once.2.disk = world.disk := disk_startUnder o g w world
  -- the parts of the second call have as little to do in the worlds in which they are
  have hcycle : (rearmIfPending p once.1 (once.2.armed o g)).1 = once.1 :=
    (rearmIfPending_of_concur (World.concur_armed hdisk)).trans hcycle
  have hcycleDisk : (rearmIfPending p once.1 (once.2.armed o g)).2.disk = world.disk :=
    (attempted_rearmIfPending once.1 _).disk.trans hdisk
  have hresume : (resume p once.1 ((rearmIfPending p once.1 (once.2.armed o g)).2.armed o g)).1 =
      once.1 :=
    (resume_of_concur (World.concur_armed hcycleDisk)).trans hresume
  have htwice : twice =
      resume p once.1 ((rearmIfPending p once.1 (once.2.armed o g)).2.armed o g) := by
    show once.1.startUnder p o g once.2 = _
    rw [startUnder_eq, hcycle]
  refine ⟨?_, ?_, ?_, ?_, ?_⟩
  · rw [htwice, hresume]
  · rw [htwice, handlesOpened_resume_of_spent hresume]
    show (rearmIfPending p once.1 (once.2.armed o g)).2.handlesOpened = once.2.handlesOpened
    rw [handlesOpened_rearmIfPending, reopened?_of_spent hcycle]
    rfl
  · intro hlistens
    rw [htwice, resume_of_listening _ hlistens]
    exact journal_rearmIfPending_of_spent hcycle hlistens
  · rintro rfl rfl
    exact startUnder_none w world
  · intro e e' hfails
    exact startUnder_of_fails hfails e e' w world

/-- A bereft watch is idle after any number of calls that meet a failure, and its rearm as pending.
The first call in which handles open queues the return of its root, and the second one does not. -/
theorem start_bereft :
    let full : NativeError := ⟨.tooManyWatches, []⟩
    let failed := bereft.1.startUnder .unix none (some full) bereft.2
    let opened := failed.1.startUnder .unix none none failed.2
    let again := opened.1.startUnder .unix none none opened.2
    (failed.1.stage = .idle ∧ failed.1.rearmPending = true)
      ∧ (failed.1.startUnder .unix none (some full) failed.2).1 = failed.1
      ∧ (opened.1.queue.toList = [⟨.removed, topRequest.path⟩, ⟨.added, topRequest.path⟩]
        ∧ opened.1.rearmPending = false
        ∧ opened.2.handlesOpened = failed.2.handlesOpened + 1)
      ∧ again.1 = opened.1 ∧ again.2.handlesOpened = opened.2.handlesOpened := by
  intro full failed opened again
  obtain ⟨hfailed, -⟩ := start_idempotent (p := .unix) none (some full) bereft.1 bereft.2
  obtain ⟨hwatch, hopened, -⟩ := start_idempotent (p := .unix) none none failed.1 failed.2
  exact ⟨⟨by decide, by decide⟩, hfailed, ⟨by decide, by decide, by decide⟩, hwatch, hopened⟩

end NativeWatch

end FileWatch
