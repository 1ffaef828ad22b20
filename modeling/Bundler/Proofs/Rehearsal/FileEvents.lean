import Bundler.Proofs.Rehearsal.Happenings

/-!
# What becomes of file events

`Work.events_kept` follows one path of one event that a lookout accepted. As long as the session
goes on, the lookout is open and holds it, or has sent a change set that names it, or was closed
when it had the path in its hands. The last is what a session does to its old lookout after every
run, as `Work.resubscribing_loses` shows.
-/

namespace Bundler.Rehearsal

open CommandLine (Errand Request)

namespace Site

/-! ## One path of one event -/

/-- A change set of a lookout was sent that names a path. -/
def Reported (happenings : List Happening) (position : Nat) (path : Path) : Prop :=
  ∃ courier changes, .sent position courier changes true ∈ happenings ∧ changes.Names path

/-- A lookout was closed that held a path. -/
def Dropped (happenings : List Happening) (position : Nat) (path : Path) : Prop :=
  ∃ task seen closed lookout, .worked task seen closed ∈ happenings ∧
    (position, lookout) ∈ closed ∧ lookout.Holds path

theorem Reported.mono {some_ all : List Happening} {position : Nat} {path : Path}
    (reported : Reported some_ position path) (included : some_ ⊆ all) :
    Reported all position path := by
  obtain ⟨courier, changes, member, names⟩ := reported
  exact ⟨courier, changes, included member, names⟩

theorem Dropped.mono {some_ all : List Happening} {position : Nat} {path : Path}
    (dropped : Dropped some_ position path) (included : some_ ⊆ all) :
    Dropped all position path := by
  obtain ⟨task, seen, closed, lookout, member, mine, holds⟩ := dropped
  exact ⟨task, seen, closed, lookout, included member, mine, holds⟩

namespace Work

variable {start work after : Work} {happening : Happening} {happenings : List Happening}
  {position : Nat} {path : Path}

/-- The lookout is open and was not done with a path. -/
def Holding (work : Work) (position : Nat) (path : Path) : Prop :=
  ∃ lookout, work.lookouts[position]? = some lookout ∧ lookout.isOpen = true ∧ lookout.Holds path

/-- The session of a lookout takes no change sets any more. -/
def Deaf (work : Work) (position : Nat) : Prop :=
  ∃ lookout, work.lookouts[position]? = some lookout ∧
    (work.world.session lookout.session).receives = false

theorem Deaf.happens (deaf : work.Deaf position) (minded : work.Minded)
    (happens : work.Happens happening after) : after.Deaf position := by
  obtain ⟨lookout, there, unheard⟩ := deaf
  obtain ⟨later, found, fares⟩ := happens.fares minded there
  refine ⟨later, found, ?_⟩
  rw [fares.session]
  cases happens with
  | worked step => exact step.deaf unheard
  | sent _ _ told => exact told.deaf unheard
  | edited | heard | looked => exact unheard

theorem Happens.deaf_of_refused {courier : TaskId} {changes : ChangeSet}
    (happens : work.Happens (.sent position courier changes false) after) :
    after.Deaf position := by
  cases happens with
  | @sent _ lookout later _ _ _ after there due told =>
      refine ⟨later, getElem?_own later (lookouts_op told ▸ there), ?_⟩
      rw [(Lookout.continues_due due).session]
      exact told.deaf_of_refused

/-- What has become of a path since a lookout accepted it. -/
inductive Fate (happenings : List Happening) (work : Work) (position : Nat) (path : Path) :
    Prop where
  | held (holding : work.Holding position path)
  | reported (reported : Reported happenings position path)
  | dropped (dropped : Dropped happenings position path)
  | refused (deaf : work.Deaf position)

/-- A path that a lookout holds is held after whatever happens next, or reported, or dropped with
the lookout that was closed. -/
theorem Holding.happens (holding : work.Holding position path) (minded : work.Minded)
    (happens : work.Happens happening after) : Fate [happening] after position path := by
  obtain ⟨lookout, there, listens, holds⟩ := holding
  obtain ⟨later, found, fares⟩ := happens.fares minded there
  cases fares with
  | rests => exact .held ⟨lookout, found, listens, holds⟩
  | hears event =>
      have still := (lookout.continues_hear event).isOpen.trans listens
      exact .held ⟨_, found, still, holds.hear event⟩
  | looks looked =>
      have still := (Lookout.continues_look looked).isOpen.trans listens
      exact .held ⟨later, found, still, holds.look looked⟩
  | @reports _ courier changes taken _ due =>
      rcases holds.due due with names | holds
      · cases taken with
        | true => exact .reported ⟨courier, changes, List.mem_singleton_self _, names⟩
        | false => exact .refused happens.deaf_of_refused
      · exact .held ⟨later, found, (Lookout.continues_due due).isOpen.trans listens, holds⟩
  | @closes task seen closed given =>
      exact .dropped ⟨task, seen, closed, lookout, List.mem_singleton_self _, given listens, holds⟩

theorem Fate.happens (fate : Fate happenings work position path) (minded : work.Minded)
    (happens : work.Happens happening after) :
    Fate (happenings ++ [happening]) after position path := by
  cases fate with
  | held holding =>
      cases holding.happens minded happens with
      | held holding => exact .held holding
      | reported reported => exact .reported (reported.mono (List.subset_append_right _ _))
      | dropped dropped => exact .dropped (dropped.mono (List.subset_append_right _ _))
      | refused deaf => exact .refused deaf
  | reported reported => exact .reported (reported.mono (List.subset_append_left _ _))
  | dropped dropped => exact .dropped (dropped.mono (List.subset_append_left _ _))
  | refused deaf => exact .refused (deaf.happens minded happens)

/-- What becomes of a path that is held along a run. -/
theorem Runs.fate (runs : start.Runs happenings work) (minded : start.Minded)
    (holding : start.Holding position path) : Fate happenings work position path := by
  induction runs with
  | start => exact .held holding
  | next before happens ih => exact ih.happens (before.minded minded) happens

/-- What an open lookout accepted is held by it as long as it is open, unless a change set of its
reported it. Only who closes a lookout with something in its hands loses an event. -/
theorem events_kept {past later : List Happening} {accepted : List Path} {lookout : Lookout}
    (vacant : start.Vacant False)
    (minds : ∀ id program, start.program? id = some program → Mindful program)
    (runs : start.Runs (past ++ .heard position accepted :: later) work)
    (matters : path ∈ accepted) (there : work.lookouts[position]? = some lookout)
    (going : (work.world.session lookout.session).phase ≠ .closed) :
    work.Holding position path ∨ Reported later position path ∨ Dropped later position path := by
  obtain ⟨before, heard, begun, happens, onward⟩ := runs.split
  have minded := (begun.minded ⟨vacant.tidy, minds⟩).happens happens
  have holding : heard.Holding position path := by
    cases happens with
    | @heard _ lookout event there listens =>
        exact ⟨_, getElem?_own (lookout.hear event) there,
          (lookout.continues_hear event).isOpen.trans listens, Lookout.holds_hear listens matters⟩
  cases onward.fate minded holding with
  | held holding => exact .inl holding
  | reported reported => exact .inr (.inl reported)
  | dropped dropped => exact .inr (.inr dropped)
  | refused deaf =>
      obtain ⟨own, found, unheard⟩ := deaf
      cases found.symm.trans there
      exact absurd (runs.receives vacant going) (by simp [unheard])

/-! ## An unlucky save -/

/-- A compiler of two files. -/
def twoFiles : CompilerRecord CommandLine.setting where
  options := { Options.forContext (.of "/") with
    cache := false
    entry := (Table.empty.insert "first" "./a").insert "second" "./b" }

/-- A session is opened, and told that one of the files has changed. -/
def saving : Errand Unit := do
  match ← Compiler.watch (S := CommandLine.setting) 0 {} () with
  | none => pure ()
  | some session => Errand.deliver session (ChangeSet.ofPaths [.of "/b"] [])

/-- Two empty files, and a task that watches them. -/
def attended : Work :=
  Machine.hosting
    { disk := ((Disk.blank (.of "/")).put (.of "/a") (.file .empty)).put (.of "/b") (.file .empty) }
    [twoFiles] saving

theorem attended_vacant : attended.Vacant False := by
  have visits : saving.Visitor False := by
    refine .watch fun session => ?_
    cases session with
    | none => exact .done ()
    | some session => exact (Errand.modest_deliver _ _).visitor
  refine Machine.vacant_hosting visits fun record member => ?_
  obtain rfl := List.mem_singleton.mp member
  exact ⟨rfl, rfl⟩

theorem attended_minds (id : TaskId) (program : Errand (Compiler.Next CommandLine.setting))
    (found : attended.program? id = some program) : Mindful program := by
  obtain ⟨-, rfl⟩ := Machine.program?_hosting found
  refine Prog.Confined.bind (.bind ?_ fun session => ?_) fun _ => .done _
  · exact (Compiler.within_watch (S := CommandLine.setting) 0 {} ()).confined.mono (fun _ _ => trivial)
      fun _ _ => trivial
  · cases session with
    | none => exact .done ()
    | some session => exact (Errand.modest_deliver _ _).mono (fun _ _ => trivial) fun _ _ => trivial

/-- The first run is over, and both files are watched. -/
def watched : List Happening × Work :=
  play attended ((List.replicate 3 0 ++ (List.replicate 70 [1, 2]).flatten).map .task)

/-- One file is saved. -/
def saved : List Happening × Work := play watched.2 [.hear 0 (.changed [.of "/b"])]

/-- The session is told, and begins another run. -/
def running : List Happening × Work :=
  play saved.2 (.look 0 :: .send 0 0 :: (List.replicate 14 1).map .task)

/-- The other file is saved while the run is under way. -/
def savedAgain : List Happening × Work := play running.2 [.hear 0 (.changed [.of "/a"])]

/-- The lookout has looked at the save when the run is over. -/
def finished : List Happening × Work :=
  play savedAgain.2 (.look 0 :: (List.replicate 50 3 ++ List.replicate 30 1).map .task)

theorem play_hear {event : FileEvent} {accepted : List Path}
    (known : (work.lookouts[position]?.map fun lookout =>
      (lookout.isOpen, lookout.accepted event)) = some (true, accepted)) :
    (play work [.hear position event]).1 = [.heard position accepted] := by
  obtain ⟨lookout, there, same⟩ := Option.map_eq_some_iff.mp known
  obtain ⟨listens, rfl⟩ := Prod.mk.inj same
  simp [play, turn?, there, listens]

theorem runs_running :
    attended.Runs (watched.1 ++ .heard 0 [.of "/b"] :: running.1) running.2 := by
  have heard : saved.1 = [.heard 0 [.of "/b"]] := play_hear (by decide +kernel)
  have runs := ((runs_play attended _).append (runs_play watched.2 _)).append
    (runs_play saved.2 (.look 0 :: .send 0 0 :: (List.replicate 14 1).map .task))
  change attended.Runs ((watched.1 ++ saved.1) ++ running.1) running.2 at runs
  rwa [heard, List.append_assoc] at runs

/-- The first save was reported, and led to the run that is under way. -/
theorem saved_event_kept :
    (running.2.world.session 0).phase = .active ∧
      (running.2.Holding 0 (.of "/b") ∨ Reported running.1 0 (.of "/b") ∨
        Dropped running.1 0 (.of "/b")) := by
  obtain ⟨active, known⟩ : (running.2.world.session 0).phase = .active ∧
      running.2.lookouts[0]?.map Lookout.session = some 0 := by decide +kernel
  obtain ⟨lookout, there, same⟩ := Option.map_eq_some_iff.mp known
  refine ⟨active, events_kept attended_vacant attended_minds runs_running
    (List.mem_singleton_self _) there ?_⟩
  rw [same, active]
  nofun

/-- The change sets that were sent. -/
def sent (happenings : List Happening) : List ChangeSet :=
  happenings.filterMap fun happening =>
    match happening with
    | .sent _ _ changes _ => some changes
    | _ => none

/-- A save during a run is lost if the lookout has not sent it when the run is over, and is closed
for a new one: the session goes on, but no open lookout holds the path, and no change set reports
it. -/
theorem resubscribing_loses :
    attended.Vacant False ∧
      (∀ id program, attended.program? id = some program → Mindful program) ∧
      attended.Runs ((watched.1 ++ .heard 0 [.of "/b"] :: running.1) ++
        .heard 0 [.of "/a"] :: finished.1) finished.2 ∧
      (finished.2.world.session 0).phase = .active ∧
      (∀ position, ¬ finished.2.Holding position (.of "/a")) ∧
      (∀ position, ¬ Reported finished.1 position (.of "/a")) := by
  obtain ⟨active, empty, silent⟩ : (finished.2.world.session 0).phase = .active ∧
      (finished.2.lookouts.all fun lookout =>
        lookout.queue.isEmpty && lookout.burst.isEmpty) = true ∧
      sent finished.1 = [] := by decide +kernel
  refine ⟨attended_vacant, attended_minds, ?_, active, ?_, ?_⟩
  · have heard : savedAgain.1 = [.heard 0 [.of "/a"]] := play_hear (by decide +kernel)
    have runs := (runs_running.append (runs_play running.2 [.hear 0 (.changed [.of "/a"])])).append
      (runs_play savedAgain.2
        (.look 0 :: (List.replicate 50 3 ++ List.replicate 30 1).map .task))
    change attended.Runs ((_ ++ savedAgain.1) ++ finished.1) finished.2 at runs
    rwa [heard, List.append_assoc] at runs
  · rintro position ⟨lookout, there, -, holds⟩
    have own := List.all_eq_true.mp empty lookout (List.mem_of_getElem? there)
    rw [Bool.and_eq_true, List.isEmpty_iff] at own
    exact Lookout.not_holds_of_empty own.1 own.2 holds
  · rintro position ⟨courier, changes, member, -⟩
    have absent := List.filterMap_eq_nil_iff.mp silent _ member
    cases absent

end Work

end Site

end Bundler.Rehearsal
