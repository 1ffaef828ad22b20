import Bundler.Proofs.CommandLine.Errands
import Bundler.Proofs.Compiler.Scripts

/-!
# What happens on a site

The lookouts of a program work beside its tasks: they hear events, look at them, and send a change
set when a burst is over. `Work.Happens` is everything that can happen, in any order and at any
time, while files change as they like; `Work.Runs` is what has happened so far. `Happens.fares`
says what becomes of one lookout, whatever it is that happens. Hearing an edit as a rehearsal
does, all events at once, is one of the runs.
-/

namespace Bundler.Rehearsal

open CommandLine (Errand Request)

/-- What happens on a site. Lookouts are called by their position. -/
inductive Happening where
  /-- A task makes a step. The lookouts that it closes are shown as they were until then. -/
  | worked (task : TaskId) (seen : Option (Event CommandLine.setting)) (closed : List (Nat × Lookout))
  /-- Files change. -/
  | edited
  /-- An open lookout hears an event; the paths that matter to it. -/
  | heard (position : Nat) (accepted : List Path)
  | looked (position : Nat)
  /-- The burst of a lookout is over, and a task delivers its change set to the session. -/
  | sent (position : Nat) (courier : TaskId) (changes : ChangeSet) (taken : Bool)

namespace Site

/-- The lookouts that are open in the first list but not in the second. -/
def closings (before after : List Lookout) : List (Nat × Lookout) :=
  before.zipIdx.filterMap fun (lookout, position) =>
    if lookout.isOpen && !(after[position]?.any Lookout.isOpen) then some (position, lookout)
    else none

theorem mem_closings {before after : List Lookout} {position : Nat} {lookout : Lookout}
    (there : before[position]? = some lookout) (open_ : lookout.isOpen = true)
    (closed : after[position]?.any Lookout.isOpen = false) :
    (position, lookout) ∈ closings before after := by
  refine List.mem_filterMap.mpr ⟨(lookout, position), ?_, by simp [open_, closed]⟩
  exact List.mem_zipIdx_iff_getElem?.mpr there

namespace Work

def lookouts (work : Work) : List Lookout := work.state.desk.lookouts

/-- A program after one of its lookouts did something. -/
def withLookout (work : Work) (position : Nat) (lookout : Lookout) : Work :=
  { work with
    state := { work.state with
      desk := { work.state.desk with lookouts := work.lookouts.set position lookout } } }

/-- What can happen while a program is at work. Any task may make the next step, any open
lookout may hear of anything, and a burst may be over at any time. -/
inductive Happens (work : Work) : Happening → Work → Prop where
  | worked {task seen} {after : Work} (step : work.Step task seen after) :
      Happens work (.worked task seen (closings work.lookouts after.lookouts)) after
  | edited (disk : Disk) : Happens work .edited (changeDisk work fun _ => disk)
  | heard {position lookout} (event : FileEvent) (there : work.lookouts[position]? = some lookout)
      (listens : lookout.isOpen = true) :
      Happens work (.heard position (lookout.accepted event))
        (work.withLookout position (lookout.hear event))
  | looked {position lookout later} (there : work.lookouts[position]? = some lookout)
      (looked : lookout.look? = some later) :
      Happens work (.looked position) (work.withLookout position later)
  | sent {position lookout later changes courier taken} {after : Work}
      (there : work.lookouts[position]? = some lookout)
      (due : lookout.due? work.state.disk.contains = some (changes, later))
      (told : work.Step courier (some (.op (.deliver lookout.session changes) taken)) after) :
      Happens work (.sent position courier changes taken) (after.withLookout position later)

/-- What has happened, and the program after it. -/
inductive Runs (start : Work) : List Happening → Work → Prop where
  | start : Runs start [] start
  | next {happenings work happening after} (before : Runs start happenings work)
      (happens : work.Happens happening after) : Runs start (happenings ++ [happening]) after

variable {start middle work after : Work} {happening : Happening} {position : Nat} {path : Path}

theorem Runs.append {first rest : List Happening} (before : start.Runs first middle)
    (onward : middle.Runs rest work) : start.Runs (first ++ rest) work := by
  induction onward with
  | start => rwa [List.append_nil]
  | next _ happens ih =>
      rw [← List.append_assoc]
      exact ih.next happens

/-- A run up to one of its happenings, with the happening, and from there on. -/
theorem Runs.split {first rest : List Happening}
    (runs : start.Runs (first ++ happening :: rest) work) :
    ∃ before after, start.Runs first before ∧ before.Happens happening after ∧
      after.Runs rest work := by
  generalize all : first ++ happening :: rest = happenings at runs
  induction runs generalizing rest with
  | start => simp at all
  | @next earlier middle last after before happens ih =>
      rcases List.eq_nil_or_concat rest with rfl | ⟨rest, final, rfl⟩
      · obtain ⟨rfl, same⟩ := List.append_inj' all rfl
        cases same
        exact ⟨middle, after, before, happens, .start⟩
      · rw [List.concat_eq_append, ← List.cons_append, ← List.append_assoc] at all
        obtain ⟨same, last⟩ := List.append_inj' all rfl
        obtain ⟨reached, moved, first, made, onward⟩ := ih same
        cases last
        rw [List.concat_eq_append]
        exact ⟨reached, moved, first, made, onward.next happens⟩

/-! ## Machines beside lookouts -/

/-- The machine of a program does what it would do where its surroundings follow a script. -/
theorem Runs.trace {happenings : List Happening} (runs : start.Runs happenings work) :
    ∃ events answers, ∀ rest,
      (start.scripted (answers ++ rest)).Trace events (work.scripted rest) := by
  induction runs with
  | start => exact ⟨[], [], fun rest => .start⟩
  | @next happenings work happening after before happens ih =>
      obtain ⟨events, answers, trace⟩ := ih
      have steps : ∀ {task seen} {moved : Work}, work.Step task seen moved →
          ∃ events answers, ∀ rest,
            (start.scripted (answers ++ rest)).Trace events (moved.scripted rest) := by
        intro task seen moved step
        obtain ⟨added, made⟩ := step.scripted
        have joined : ∀ rest, (start.scripted ((answers ++ added) ++ rest)).Trace events
            (work.scripted (added ++ rest)) := by
          intro rest
          rw [List.append_assoc]
          exact trace (added ++ rest)
        cases seen with
        | none => exact ⟨events, answers ++ added, fun rest => (joined rest).unseen (made rest)⟩
        | some event =>
            exact ⟨events ++ [(task, event)], answers ++ added,
              fun rest => (joined rest).seen (made rest)⟩
      cases happens with
      | worked step => exact steps step
      | sent there due told =>
          obtain ⟨events, answers, trace⟩ := steps told
          exact ⟨events, answers, trace⟩
      | edited | heard | looked => exact ⟨events, answers, trace⟩

/-- A session that is not closed takes change sets. -/
theorem Runs.receives {happenings : List Happening} {session : SessionId}
    (runs : start.Runs happenings work) (vacant : start.Vacant False)
    (going : (work.world.session session).phase ≠ .closed) :
    (work.world.session session).receives = true := by
  obtain ⟨events, answers, trace⟩ := runs.trace
  have reached := trace []
  exact reached.receives_of_open (vacant.scripted _) (fun outside => hosts False outside) going

/-! ## Tasks that mind the lookouts -/

/-- A program whose requests mind the lookouts. -/
abbrev Mindful {α : Type} (program : Errand α) : Prop :=
  program.Confined (fun _ => True) (fun _ => True) Request.Minds

/-- All tasks mind the lookouts. -/
structure Minded (work : Work) : Prop where
  tidy : work.Tidy
  minds : ∀ id program, work.program? id = some program → Mindful program

theorem mindful_respond (outside : Call CommandLine.setting) : Mindful (Errand.respond outside) :=
  (Errand.modest_respond outside).mono (fun _ _ => trivial) fun _ _ => trivial

theorem mindful_program (job : Job CommandLine.setting) : Mindful (Compiler.program job) :=
  (Compiler.within_program job).confined.mono (fun _ _ => trivial) fun _ _ => trivial

/-- A request that minds the lookouts moves them as it may. -/
theorem moves_of_minds {wish : Request} {answer : CommandLine.setting.Answer wish} {site later : Site}
    (minds : wish.Minds) (served : environment.serve wish site = some (answer, later)) :
    Lookout.Moves site.desk.lookouts later.desk.lookouts := by
  have acts : ∀ result, (site.act result).2.desk = site.desk := by
    intro result
    cases result <;> rfl
  cases wish with
  | change step =>
      obtain ⟨desk, moved, same⟩ := Option.map_eq_some_iff.mp served
      cases same
      exact minds _ _ moved
  | mkdir path =>
      have same := congrArg (fun result => result.2.desk) (Option.some.inj served)
      rw [← same, acts]
      exact .kept
  | write path content =>
      have same := congrArg (fun result => result.2.desk) (Option.some.inj served)
      rw [← same, acts]
      exact .kept
  | _ =>
      cases served
      exact .kept

/-- A step of a task that minds the lookouts. -/
theorem Minded.moves {task : TaskId} {seen : Option (Event CommandLine.setting)} (minded : work.Minded)
    (step : work.Step task seen after) : Lookout.Moves work.lookouts after.lookouts := by
  cases step with
  | request runs served =>
      cases minded.minds _ _ runs with
      | request allowed rest => exact moves_of_minds allowed served
  | op | call | turn | finish | crash => exact .kept

/-- Tasks go on to mind the lookouts, and those that are spawned do as well. -/
theorem Minded.step {task : TaskId} {seen : Option (Event CommandLine.setting)} (minded : work.Minded)
    (step : work.Step task seen after) : after.Minded := by
  refine ⟨minded.tidy.step step, fun other program found => ?_⟩
  rcases minded.tidy.program?_cases step found with rfl | ⟨job, -, rfl⟩ | ⟨-, earlier⟩
  · have calm : work.program? other ≠ some .panic := by
      intro panicked
      cases minded.minds _ _ panicked
    rcases minded.tidy.program?_self step calm with
      ⟨_, _, _, runs, -, left⟩ | ⟨_, _, runs, -, left⟩ | ⟨_, _, _, runs, -, left⟩ |
        ⟨_, -, -, left⟩ | ⟨-, -, left⟩
    · cases left.symm.trans found
      cases minded.minds _ _ runs with
      | op _ rest => exact rest _
    · cases left.symm.trans found
      cases minded.minds _ _ runs with
      | call _ rest => exact (mindful_respond _).bind rest
    · cases left.symm.trans found
      cases minded.minds _ _ runs with
      | request _ rest => exact rest _
    · cases left.symm.trans found
      exact mindful_program _
    · cases left.symm.trans found
  · exact mindful_program job
  · exact minded.minds other program earlier

theorem Minded.happens (minded : work.Minded) (happens : work.Happens happening after) :
    after.Minded := by
  cases happens with
  | worked step => exact minded.step step
  | sent there due told =>
      have later := minded.step told
      exact ⟨⟨later.tidy.pending, later.tidy.below⟩, later.minds⟩
  | edited | heard | looked => exact ⟨⟨minded.tidy.pending, minded.tidy.below⟩, minded.minds⟩

theorem Runs.minded {happenings : List Happening} (runs : start.Runs happenings work)
    (minded : start.Minded) : work.Minded := by
  induction runs with
  | start => exact minded
  | next _ happens ih => exact ih.happens happens

/-! ## One lookout among others -/

/-- What becomes of one lookout when something happens. -/
inductive Fares (position : Nat) (lookout : Lookout) : Happening → Lookout → Prop where
  | rests {happening : Happening} : Fares position lookout happening lookout
  | hears (event : FileEvent) (listens : lookout.isOpen = true) :
      Fares position lookout (.heard position (lookout.accepted event)) (lookout.hear event)
  | looks {later} (looked : lookout.look? = some later) :
      Fares position lookout (.looked position) later
  | reports {isThere courier changes taken later}
      (due : lookout.due? isThere = some (changes, later)) :
      Fares position lookout (.sent position courier changes taken) later
  | closes {task seen closed}
      (given : lookout.isOpen = true → (position, lookout) ∈ closed) :
      Fares position lookout (.worked task seen closed) lookout.close

theorem getElem?_withLookout {other : Nat} {old : Lookout} (new : Lookout)
    (there : work.lookouts[other]? = some old) :
    (work.withLookout other new).lookouts[position]? =
      if other = position then some new else work.lookouts[position]? := by
  have inside := (List.getElem?_eq_some_iff.mp there).1
  change (work.lookouts.set other new)[position]? = _
  rw [List.getElem?_set, if_pos inside]

theorem getElem?_own {old : Lookout} (new : Lookout)
    (there : work.lookouts[position]? = some old) :
    (work.withLookout position new).lookouts[position]? = some new := by
  rw [getElem?_withLookout new there, if_pos rfl]

/-- Operations do nothing to lookouts. -/
theorem lookouts_op {task : TaskId} {operation : Op CommandLine.setting} {reply : operation.Reply}
    (step : work.Step task (some (.op operation reply)) after) :
    lookouts after = work.lookouts := by
  cases step
  rfl

/-- Whatever happens, a lookout that is there fares in one of these ways. -/
theorem Happens.fares {lookout : Lookout} (happens : work.Happens happening after)
    (minded : work.Minded) (there : work.lookouts[position]? = some lookout) :
    ∃ later, after.lookouts[position]? = some later ∧ Fares position lookout happening later := by
  cases happens with
  | worked step =>
      rcases (minded.moves step).getElem? there with kept | closed
      · exact ⟨lookout, kept, .rests⟩
      · exact ⟨_, closed, .closes fun open_ => mem_closings there open_ (by rw [closed]; rfl)⟩
  | edited disk => exact ⟨lookout, there, .rests⟩
  | @heard other own event found listens =>
      rw [getElem?_withLookout _ found]
      by_cases same : other = position
      · obtain rfl := same
        cases found.symm.trans there
        exact ⟨_, if_pos rfl, .hears event listens⟩
      · exact ⟨lookout, by rw [if_neg same, there], .rests⟩
  | @looked other own later found looked =>
      rw [getElem?_withLookout _ found]
      by_cases same : other = position
      · obtain rfl := same
        cases found.symm.trans there
        exact ⟨later, if_pos rfl, .looks looked⟩
      · exact ⟨lookout, by rw [if_neg same, there], .rests⟩
  | @sent other own later changes courier taken after found due told =>
      have kept := lookouts_op told
      rw [getElem?_withLookout later (kept ▸ found), kept]
      by_cases same : other = position
      · obtain rfl := same
        cases found.symm.trans there
        exact ⟨later, if_pos rfl, .reports due⟩
      · exact ⟨lookout, by rw [if_neg same, there], .rests⟩

theorem Fares.session {lookout later : Lookout} (fares : Fares position lookout happening later) :
    later.session = lookout.session := by
  cases fares with
  | rests | closes => rfl
  | hears event => exact (lookout.continues_hear event).session
  | looks looked => exact (Lookout.continues_look looked).session
  | reports due => exact (Lookout.continues_due due).session

/-! ## Rehearsals -/

theorem withLookout_self {lookout : Lookout} (there : work.lookouts[position]? = some lookout) :
    work.withLookout position lookout = work := by
  have same : work.lookouts.set position lookout = work.lookouts := by
    obtain ⟨inside, rfl⟩ := List.getElem?_eq_some_iff.mp there
    exact List.set_getElem_self inside
  rw [withLookout, same]
  rfl

theorem withLookout_withLookout (first last : Lookout) :
    (work.withLookout position first).withLookout position last =
      work.withLookout position last := by
  simp only [withLookout, lookouts, List.set_set]

/-- An open lookout hears one event after the other. -/
theorem runs_hear {lookout : Lookout} (there : work.lookouts[position]? = some lookout)
    (listens : lookout.isOpen = true) (events : List FileEvent) :
    ∃ happenings, work.Runs happenings
      (work.withLookout position (events.foldl Lookout.hear lookout)) := by
  induction events generalizing work lookout with
  | nil => exact ⟨[], by rw [List.foldl_nil, withLookout_self there]; exact .start⟩
  | cons event rest ih =>
      have still := (lookout.continues_hear event).isOpen.trans listens
      obtain ⟨happenings, onward⟩ := ih (getElem?_own (lookout.hear event) there) still
      rw [withLookout_withLookout] at onward
      exact ⟨_, (Runs.start.next (.heard event there listens)).append onward⟩

/-- A lookout looks at one event after the other, until it has seen all. -/
theorem runs_lookAtAll {lookout : Lookout} (there : work.lookouts[position]? = some lookout) :
    ∃ happenings, work.Runs happenings (work.withLookout position lookout.lookAtAll) := by
  generalize queue : lookout.queue = events
  induction events generalizing work lookout with
  | nil =>
      have looked : lookout.look? = none := by rw [Lookout.look?, queue]
      exact ⟨[], by rw [Lookout.lookAtAll_of_looked looked, withLookout_self there]; exact .start⟩
  | cons event rest ih =>
      let later := ({ lookout with queue := rest } : Lookout).collect event
      have looked : lookout.look? = some later := by rw [Lookout.look?, queue]
      obtain ⟨happenings, onward⟩ := ih (getElem?_own later there) rfl
      rw [withLookout_withLookout, ← Lookout.lookAtAll_look looked] at onward
      exact ⟨_, (Runs.start.next (.looked there looked)).append onward⟩

/-- What a rehearsal lets an open lookout hear and look at is a run. -/
theorem runs_hearAll {lookout : Lookout} (there : work.lookouts[position]? = some lookout)
    (listens : lookout.isOpen = true) (disk : Disk) (places : List Path) :
    ∃ happenings, work.Runs happenings
      (work.withLookout position (hearAll disk places lookout).lookAtAll) := by
  obtain ⟨heard, first⟩ := runs_hear there listens
    (places.flatMap fun place =>
      (lookout.directories.keys.filterMap (nameFrom? disk place)).map fun path =>
        FileEvent.changed [path])
  obtain ⟨looked, rest⟩ := runs_lookAtAll (getElem?_own (hearAll disk places lookout) there)
  rw [withLookout_withLookout] at rest
  exact ⟨heard ++ looked, first.append rest⟩

/-! ## Schedules -/

/-- What is to happen next. -/
inductive Turn where
  | task (id : TaskId)
  | hear (position : Nat) (event : FileEvent)
  | look (position : Nat)
  | send (position : Nat) (courier : TaskId)

/-- What happens if it is its turn; nothing if it cannot happen now. -/
def turn? (work : Work) : Turn → Option (Happening × Work)
  | .task id => (work.stepSeen id).map fun (seen, after) =>
    (.worked id seen (closings work.lookouts (lookouts after)), after)
  | .hear position event =>
    match work.lookouts[position]? with
    | none => none
    | some lookout =>
      if lookout.isOpen then
        some (.heard position (lookout.accepted event),
          work.withLookout position (lookout.hear event))
      else none
  | .look position =>
    match work.lookouts[position]? with
    | none => none
    | some lookout =>
      lookout.look?.map fun later => (.looked position, work.withLookout position later)
  | .send position courier =>
    match work.lookouts[position]? with
    | none => none
    | some lookout =>
      match lookout.due? work.state.disk.contains, work.stepSeen courier with
      | some (changes, later), some (some (.op (.deliver session told) taken), after) =>
        if session = lookout.session ∧ told = changes then
          some (.sent position courier changes taken, withLookout after position later)
        else none
      | _, _ => none

theorem happens_of_turn? {turn : Turn} (made : work.turn? turn = some (happening, after)) :
    work.Happens happening after := by
  cases turn with
  | task id =>
      obtain ⟨⟨seen, moved⟩, stepped, same⟩ := Option.map_eq_some_iff.mp made
      cases same
      exact .worked (Machine.step_of_stepSeen stepped)
  | hear position event =>
      simp only [turn?] at made
      split at made
      · cases made
      · rename_i there
        split at made
        · cases made
          exact .heard event there ‹_›
        · cases made
  | look position =>
      simp only [turn?] at made
      split at made
      · cases made
      · rename_i there
        obtain ⟨later, looked, same⟩ := Option.map_eq_some_iff.mp made
        cases same
        exact .looked there looked
  | send position courier =>
      simp only [turn?] at made
      split at made
      · cases made
      · rename_i there
        split at made
        · rename_i due stepped
          split at made
          · rename_i same
            obtain ⟨rfl, rfl⟩ := same
            cases made
            exact .sent there due (Machine.step_of_stepSeen stepped)
          · cases made
        · cases made

/-- Everything happens when it is its turn; what cannot happen then is passed over. -/
def play (work : Work) : List Turn → List Happening × Work
  | [] => ([], work)
  | turn :: rest =>
    match work.turn? turn with
    | none => play work rest
    | some (happening, after) => (happening :: (play after rest).1, (play after rest).2)

/-- A schedule makes a run. -/
theorem runs_play (work : Work) (turns : List Turn) :
    work.Runs (play work turns).1 (play work turns).2 := by
  induction turns generalizing work with
  | nil => exact .start
  | cons turn rest ih =>
      rw [play]
      split
      · exact ih work
      · rename_i happening after made
        exact (Runs.start.next (happens_of_turn? made)).append (ih after)

end Work

end Site

end Bundler.Rehearsal
