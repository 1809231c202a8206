import FileWatch.Proofs.Disk.Canonical
import FileWatch.Proofs.Disk.Edits
import FileWatch.Proofs.Watcher.Agreement

/-! # Spelling — a watch does not depend on how its target is spelled

A request is validated by the path as it is given, and the root that is stored is the canonical path.
One that is too long for the operating system is refused (`watch_of_overlong`). Two others with one
canonical path lead to the same entry, so both are valid or neither is (`validate_of_canonical`) and
the watches differ in the request that they keep and in nothing else. No step reads that request but
those that resolve the path again (`Transition.resolvesAgain`), so all others do the same to both
watches (`run_keeping`).
-/

namespace FileWatch

/-- Whether a path is the one that a disk has for an entry: absolute, without dots, through no link,
and resolved to itself. -/
structure Disk.IsCanonical (d : Disk) (c : Path) : Prop where
  absolute : c.isAbsolute = true
  place : ∃ place : Place, c = Path.ofNames place ∧ c.components = .root :: place.map .name
    ∧ (∀ n ∈ place, n ≠ Path.dot ∧ n ≠ Path.dotDot)
    ∧ ∀ q, q <+: place → ∃ e, d.entry? q = some e ∧ ∀ t, e ≠ .link t
  resolve_eq : d.resolve c = c
  canonical_eq : c.bytes.length ≤ Disk.longestPath → d.canonical c = .ok c

theorem Disk.IsTree.isCanonical {d : Disk} (h : d.IsTree) {p c : Path} (hc : d.canonical p = .ok c) :
    d.IsCanonical c := by
  obtain ⟨-, -, place, e, rfl, -, he, hlink⟩ := h.canonical_eq hc
  have hnames : ∀ n ∈ place, IsEntryName n := fun n hn => h.isEntryName he hn
  refine ⟨Path.isAbsolute_ofNames place,
    ⟨place, rfl, Path.components_ofNames hnames, fun n hn => ?_, fun q hq => ?_⟩,
    h.resolve_ofNames he hlink, fun hlength => ?_⟩
  · have hdot : n ≠ Path.dot := by
      rintro rfl
      exact absurd (hnames _ hn).is_name (by decide)
    exact ⟨hdot, (hnames n hn).not_dotDot⟩
  · by_cases hsame : q = place
    · exact ⟨e, by rwa [hsame], hlink⟩
    · exact Disk.isFirm_of_directory (h.directory_above he hq hsame)
  · have hnear : Disk.isFar place = false := by simpa [Disk.isFar] using hlength
    rw [h.canonical_ofNames he hlink, hnear]
    rfl

/-- Two paths with one canonical path are both valid, with that path for a root, or both lead to
something that is not a directory although one is needed. -/
theorem NativePolicy.validate_of_canonical (p : NativePolicy) {d : Disk} (h : d.IsTree)
    {r : WatchRequest} {path c : Path} (hr : r.path.bytes.length ≤ Disk.longestPath)
    (hpath : path.bytes.length ≤ Disk.longestPath) (hrc : d.canonical r.path = .ok c)
    (hpc : d.canonical path = .ok c) :
    p.validate d r = .ok c ∧ p.validate d { r with path } = .ok c
      ∨ p.validate d r = .error (.notADirectory r.path)
        ∧ p.validate d { r with path } = .error (.notADirectory path) := by
  obtain ⟨e, hstatus, hstatus'⟩ := h.status_eq_of_canonical hr hpath hrc hpc
  have hempty := (h.canonical_eq hrc).2.1
  have hempty' := (h.canonical_eq hpc).2.1
  have hresolve : d.resolve r.path = c := by rw [Disk.resolve, hrc]
  have hresolve' : d.resolve path = c := by rw [Disk.resolve, hpc]
  simp only [validate, hempty, hempty', hstatus, hstatus', hresolve, hresolve',
    Bool.false_eq_true, if_false]
  by_cases hkind : ((p.needsDirectory || r.options.recursive) && !e.isDirectory) = true
  · right
    rw [if_pos hkind, if_pos hkind]
    exact ⟨rfl, rfl⟩
  · left
    rw [if_neg hkind, if_neg hkind]
    exact ⟨rfl, rfl⟩

/-- A path that is too long is not valid, whatever its canonical path. -/
theorem NativePolicy.validate_of_overlong (p : NativePolicy) (d : Disk) {r : WatchRequest}
    (h : Disk.longestPath < r.path.bytes.length) : p.validate d r = .error (.missing r.path) := by
  obtain ⟨fault, hstatus⟩ := d.status_of_overlong h
  rw [validate, Disk.isEmpty_of_overlong h, hstatus]
  rfl

namespace NativeWatch

variable {p : NativePolicy} {w : NativeWatch} {world : World}

/-- The watch with another request to keep. -/
def keeping (r : WatchRequest) (w : NativeWatch) : NativeWatch := { w with request := some r }

/-- Whether a step resolves the path of the kept request. -/
def resolves (w : NativeWatch) : Watcher.Step → Bool
  | .call .start => w.request.isSome && (w.rearmPending || w.listener.isNone)
  | .call .poll | .call .drain => w.request.isSome && w.rearmPending
  | _ => false

theorem polls_keeping (r : WatchRequest) (hsettled : w.rearmPending = false) :
    polls p ((w.keeping r).drainPolls p world) (w.keeping r) world =
      (polls p (w.drainPolls p world) w world).map id (Prod.map (keeping r) id) := by
  refine drain_of_poll (f := keeping r) (g := id) (fun w _ => w.rearmPending = false) ?_ ?_ hsettled
  · intro w world h
    rw [poll_of_settled p (show (w.keeping r).rearmPending = false from h), poll_of_settled p h]
    rfl
  · intro w world h
    rw [poll_of_settled p h]
    exact h

/-- A step that does not resolve the path of the kept request does not read the request. -/
theorem act_keeping (r : WatchRequest) (now : Nat) {s : Watcher.Step}
    (hrequest : w.request.isSome = true) (hs : w.resolves s = false)
    (hwatch : ∀ r, s ≠ .call (.watch r)) :
    (w.keeping r).act p world now s = (w.act p world now s).map id (Prod.map (keeping r) id) := by
  cases s with
  | call c =>
    cases c with
    | watch r' => exact absurd rfl (hwatch r')
    | start =>
      rw [resolves, hrequest, Bool.true_and, Bool.or_eq_false_iff] at hs
      obtain ⟨hsettled, hopen⟩ := hs
      have hlistening : w.listener.isSome = true := by simpa using hopen
      rw [act, act, start_eq, start_eq, rearmIfPending_of_settled world hsettled,
        rearmIfPending_of_settled (w := w.keeping r) world hsettled,
        resume_of_listening world hlistening,
        resume_of_listening (w := w.keeping r) world hlistening]
      rfl
    | stop => rfl
    | poll =>
      rw [resolves, hrequest, Bool.true_and] at hs
      rw [act, act, poll_of_settled p hs, poll_of_settled (w := w.keeping r) p hs]
      rfl
    | drain =>
      rw [resolves, hrequest, Bool.true_and] at hs
      rw [act, act, polls_keeping r hs]
      rfl
  | happening h =>
    have hlive : (w.keeping r).live? = w.live? := rfl
    cases h with
    | event e =>
      rw [act, act, deliver, deliver, hlive]
      cases w.live? <;> rfl
    | failure e =>
      rw [act, act, deliverError, deliverError, hlive]
      cases w.live? <;> rfl
    | lose =>
      rw [act, act, lose, lose, hlive]
      cases w.live? <;> rfl
    | edit | openFault | registerFault | nothing => rfl

end NativeWatch

namespace Watcher

variable {p : NativePolicy}

/-- Whether a step resolves the path of the request that the watcher keeps: `start` where no handle
is open, or a detection cycle with a rearm pending. -/
def Transition.resolvesAgain (t : Transition) : Bool :=
  match t.before.backend with
  | .native _ w => w.resolves t.step
  | .stub | .rehearsal _ => false

/-- Until the path is resolved again, it makes no difference which request a watcher keeps. -/
theorem run_keeping {w : NativeWatch} {honored : EventMask} {world : World} (r : WatchRequest)
    (hrequest : w.request.isSome = true) {steps : List (Nat × Step)}
    (hsteps : ∀ t ∈ trace ⟨.native p w, honored⟩ world steps, t.resolvesAgain = false) :
    (run ⟨.native p (w.keeping r), honored⟩ world steps).1 =
      (run ⟨.native p w, honored⟩ world steps).1 := by
  induction steps generalizing w honored world with
  | nil => rfl
  | cons s rest ih =>
    obtain ⟨now, s⟩ := s
    have hs : w.resolves s = false :=
      hsteps ⟨⟨.native p w, honored⟩, world, now, s⟩ (List.mem_cons_self ..)
    rw [trace_native_cons] at hsteps
    rw [run_native_cons, run_native_cons]
    rcases s.watch_cases with ⟨r', rfl⟩ | hwatch
    · -- another watch takes the place of this one
      have hact : (w.keeping r).act p world now (.call (.watch r')) =
          w.act p world now (.call (.watch r')) := by
        rw [NativeWatch.act, NativeWatch.act, NativeWatch.watch_eq, NativeWatch.watch_eq]
        rfl
      rw [hact]
    · rw [NativeWatch.act_keeping r now hrequest hs hwatch]
      have hkept := w.request_act (p := p) world now hwatch
      generalize w.act p world now s = acted at hsteps hkept ⊢
      obtain ⟨reply, w', world'⟩ := acted
      have hrest := @ih w' (honoredAfter p honored s reply) world' (by rw [hkept]; exact hrequest)
        fun t ht => hsteps t (List.mem_cons_of_mem _ ht)
      simp only [Prod.map, id, hrest]
      rfl

/-- What comes of two calls of `watch` for paths with one canonical path: both watchers serve from
it, and differ in the request that they keep, or neither serves anything. -/
theorem watch_cases_of_canonical (w : NativeWatch) (honored : EventMask) {world : World}
    (h : world.disk.IsTree) {r : WatchRequest} {path c : Path}
    (hr : r.path.bytes.length ≤ Disk.longestPath) (hpath : path.bytes.length ≤ Disk.longestPath)
    (hrc : world.disk.canonical r.path = .ok c) (hpc : world.disk.canonical path = .ok c) :
    let one := watch ⟨.native p w, honored⟩ world r
    let other := watch ⟨.native p w, honored⟩ world { r with path }
    (one.1 = true ∧ other.1 = true ∧ one.2.1 = serving p r c
        ∧ other.2.1 = ⟨.native p ((NativeWatch.serving p r c).keeping { r with path }),
            r.events &&& p.supported⟩
        ∧ other.2.2 = one.2.2)
      ∨ one.1 = false ∧ other.1 = false ∧ one.2.1 = ofBackend (.ofPolicy p)
        ∧ other.2.1 = ofBackend (.ofPolicy p) ∧ one.2.2.Alike other.2.2 := by
  intro one other
  have hdisk : (w.released world).disk = world.disk := w.disk_released world
  have hone : one = _ := watch_native_eq w honored world r
  have hother : other = _ := watch_native_eq w honored world { r with path }
  rcases p.validate_of_canonical h hr hpath hrc hpc with ⟨hvalid, hvalid'⟩ | ⟨hvalid, hvalid'⟩
  · rw [← hdisk] at hvalid hvalid'
    -- from here on an attempt reads of the request only what is the same in both
    have hattempt : NativeWatch.attempt p (w.released world) { r with path } =
        NativeWatch.attempt p (w.released world) r := by
      rw [NativeWatch.attempt, NativeWatch.attempt, hvalid, hvalid']
    rw [hattempt] at hother
    rcases hend : NativeWatch.attempt p (w.released world) r with ⟨e | root, after⟩
    · rw [hend] at hone hother
      rw [hone, hother]
      exact .inr ⟨rfl, rfl, rfl, rfl, rfl, rfl, rfl⟩
    · obtain ⟨hroot, -, -⟩ := NativeWatch.attempt_ok_iff.mp hend
      obtain rfl : c = root := Except.ok.inj (hvalid.symm.trans hroot)
      rw [hend] at hone hother
      rw [hone, hother]
      exact .inl ⟨rfl, rfl, rfl, rfl, rfl⟩
  · rw [← hdisk] at hvalid hvalid'
    rw [NativeWatch.attempt_of_invalid hvalid] at hone
    rw [NativeWatch.attempt_of_invalid hvalid'] at hother
    rw [hone, hother]
    exact .inr ⟨rfl, rfl, rfl, rfl, rfl, rfl, rfl⟩

/-- **A watch does not depend on how its target is spelled.** In any world whose disk is a tree, and
whatever the watcher went through before, a call of `watch` has the same result for two paths that
have one canonical path and that the operating system takes. It stores that path as the root, or
no root if it fails, and honors the same mask. All further steps get the same answers, until one
resolves the path again. The canonical path is absolute, has no dots, passes no link and resolves to
itself. -/
theorem watch_of_same_canonical (w : NativeWatch) (honored : EventMask) (world : World)
    (htree : world.disk.IsTree) {r : WatchRequest} {path c : Path}
    (hr : r.path.bytes.length ≤ Disk.longestPath) (hpath : path.bytes.length ≤ Disk.longestPath)
    (hrc : world.disk.canonical r.path = .ok c) (hpc : world.disk.canonical path = .ok c) :
    let one := watch ⟨.native p w, honored⟩ world r
    let other := watch ⟨.native p w, honored⟩ world { r with path }
    one.1 = other.1
      ∧ one.2.1.root? = (if one.1 then some c else none) ∧ other.2.1.root? = one.2.1.root?
      ∧ other.2.1.honored = one.2.1.honored
      ∧ (∀ steps, (∀ t ∈ one.2.1.trace one.2.2 steps, t.resolvesAgain = false) →
          (other.2.1.run other.2.2 steps).1 = (one.2.1.run one.2.2 steps).1)
      ∧ world.disk.IsCanonical c := by
  intro one other
  have hcanonical := htree.isCanonical hrc
  rcases watch_cases_of_canonical (p := p) w honored htree hr hpath hrc hpc with
    ⟨hone, hother, hwatcher, hwatcher', hworld⟩ | ⟨hone, hother, hwatcher, hwatcher', hworlds⟩
  · refine ⟨hone.trans hother.symm, ?_, ?_, ?_, fun steps hsteps => ?_, hcanonical⟩
    · rw [if_pos hone, hwatcher]
      rfl
    · rw [hwatcher, hwatcher']
      rfl
    · rw [hwatcher, hwatcher']
      rfl
    · rw [hwatcher] at hsteps ⊢
      rw [hwatcher', hworld]
      exact run_keeping { r with path } rfl hsteps
  · refine ⟨hone.trans hother.symm, ?_, ?_, ?_, fun steps _ => ?_, hcanonical⟩
    · rw [if_neg (Bool.eq_false_iff.mp hone), hwatcher]
      rfl
    · rw [hwatcher, hwatcher']
    · rw [hwatcher, hwatcher']
    · rw [hwatcher, hwatcher']
      exact (run_alike hworlds NativeWatch.fresh .empty steps).symm

/-- A directory in a directory, and beside them a link to it. -/
def linkedDisk : Disk :=
  (({} : Disk).edit (.makeDirectory (Path.ofString "/d/w"))).edit
    (.link (Path.ofString "/s") (Path.ofString "d/w"))

theorem isTree_linkedDisk : linkedDisk.IsTree := by
  have hcurrent : (({} : Disk).edit (.makeDirectory (Path.ofString "/d/w"))).current = .here [] := by
    decide
  exact (Disk.isTree_empty.edit (Disk.isRooted_of_here rfl) _).edit
    (Disk.isRooted_of_here hcurrent) _

/-- A request for a relative path that leads through the link and up again. -/
def windingRequest : WatchRequest := ⟨Path.ofString "s/../w/.", .nameChanges, {}⟩

/-- The same request by an absolute path, with slashes to spare. -/
def slashedRequest : WatchRequest := { windingRequest with path := Path.ofString "//d///w/" }

/-- What comes of a first watch on the disk with the link. -/
def linkedWatch (r : WatchRequest) : Bool × Watcher × World :=
  watch ⟨.native .unix NativeWatch.fresh, .empty⟩ { disk := linkedDisk } r

/-- A file appears in the watched directory, and the notifications are fetched. -/
def arrival : List (Nat × Step) :=
  [(0, .happening (.event ⟨.create .file, [Path.ofString "/d/w/a"], none, false⟩)),
    (0, .call .drain)]

theorem watch_of_same_canonical_through_link :
    (linkedWatch windingRequest).1 = true ∧ (linkedWatch slashedRequest).1 = true
      ∧ (linkedWatch windingRequest).2.1.root? = some (Path.ofString "/d/w")
      ∧ (linkedWatch slashedRequest).2.1.root? = some (Path.ofString "/d/w")
      ∧ ((linkedWatch windingRequest).2.1.run (linkedWatch windingRequest).2.2 arrival).1.map
          Answer.reply = [.delivered true, .drained [⟨.added, Path.ofString "/d/w/a"⟩]]
      ∧ ((linkedWatch slashedRequest).2.1.run (linkedWatch slashedRequest).2.2 arrival).1 =
          ((linkedWatch windingRequest).2.1.run (linkedWatch windingRequest).2.2 arrival).1
      ∧ linkedDisk.resolve (Path.ofString "/d/w") = Path.ofString "/d/w" := by
  have hshort : windingRequest.path.bytes.length ≤ Disk.longestPath := by decide
  have hshort' : slashedRequest.path.bytes.length ≤ Disk.longestPath := by decide
  have hcanonical : linkedDisk.canonical windingRequest.path = .ok (Path.ofString "/d/w") := by
    decide +kernel
  have hcanonical' : linkedDisk.canonical slashedRequest.path = .ok (Path.ofString "/d/w") := by
    decide +kernel
  have hone : (linkedWatch windingRequest).1 = true := by decide +kernel
  have hreplies : ((linkedWatch windingRequest).2.1.run
      (linkedWatch windingRequest).2.2 arrival).1.map Answer.reply =
        [.delivered true, .drained [⟨.added, Path.ofString "/d/w/a"⟩]] := by decide +kernel
  have hsteps : ∀ t ∈ (linkedWatch windingRequest).2.1.trace
      (linkedWatch windingRequest).2.2 arrival, t.resolvesAgain = false := by decide +kernel
  obtain ⟨hresult, hroot, hroot', -, hrun, hself⟩ :=
    watch_of_same_canonical (p := .unix) NativeWatch.fresh .empty { disk := linkedDisk }
      isTree_linkedDisk hshort hshort' hcanonical hcanonical'
  -- the definitions are opened by hand: left to unification they would be run
  unfold linkedWatch slashedRequest at *
  refine ⟨hone, ?_, ?_, ?_, hreplies, ?_, hself.resolve_eq⟩
  · rw [← hresult, hone]
  · rw [hroot, if_pos hone]
  · rw [hroot', hroot, if_pos hone]
  · exact hrun arrival hsteps

/-- A path that is too long is refused as missing, in any world and whatever the watcher went through
before, and leaves a watcher that has never watched. -/
theorem watch_of_overlong (w : NativeWatch) (honored : EventMask) (world : World) {r : WatchRequest}
    (h : Disk.longestPath < r.path.bytes.length) :
    watch ⟨.native p w, honored⟩ world r =
      (false, ofBackend (.ofPolicy p), (w.released world).note (.refused (.missing r.path))) := by
  rw [watch_native_eq, NativeWatch.attempt_of_invalid (p.validate_of_overlong _ h)]

/-- A spelling of more bytes than the operating system takes for a path. -/
def overlong : Path := ⟨(List.replicate 2048 [0x2E, Path.slash]).flatten ++ [0x77]⟩

/-- A directory, and nothing else. -/
def singleDisk : Disk := ({} : Disk).edit (.makeDirectory (Path.ofString "w"))

/-- The length of a path is no matter to its canonical form, but it is to whether it can be watched:
behind `./` two thousand times over, a directory is missing that can be watched by its name. -/
theorem watch_of_overlong_spelling :
    let short : WatchRequest := ⟨Path.ofString "w", .nameChanges, {}⟩
    let long : WatchRequest := { short with path := overlong }
    singleDisk.IsTree
      ∧ singleDisk.canonical short.path = .ok (Path.ofString "/w")
      ∧ singleDisk.canonical long.path = .ok (Path.ofString "/w")
      ∧ ((ofBackend (.ofPolicy .unix)).watch { disk := singleDisk } short).1 = true
      ∧ ((ofBackend (.ofPolicy .unix)).watch { disk := singleDisk } long).1 = false :=
  have hlong : Disk.longestPath < overlong.bytes.length := by decide +kernel
  ⟨Disk.isTree_empty.edit (Disk.isRooted_of_here rfl) _, by decide +kernel, by decide +kernel,
    by decide +kernel, congrArg Prod.fst (watch_of_overlong NativeWatch.fresh .empty _ hlong)⟩

end Watcher

end FileWatch
