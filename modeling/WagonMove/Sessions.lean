import WagonMove.RunCourse
import WagonMove.SignalRuns

/-!
# Sessions

Runs of the two scripts one after the other, on one disk. What a run does to the disk is the same on
every disk: nothing, or the delivery of one fixed content. So the result found at a path is that of
the last run whose signal has reached it, and with default locations no script reports over the
other one.
-/

namespace WagonMove

/-- One start of a script. -/
structure Launch where
  script : ScriptFile
  cfg : Config
  passes : ℕ
  env : Env

namespace Launch

variable (l : Launch) (disk : Disk)

def path : String := l.cfg.signalPath l.script l.env.scriptDir

def result : Except (Abort Err) Unit × St := execute l.script l.cfg l.passes l.env disk

/-- The run ends with the exit code of this status, whatever is on the disk. -/
def Reports (status : Status) : Prop :=
  ∀ disk, (l.result disk).1 = .error (.exited (if status = .ok then 0 else 1))

/-- The run delivers this content, whatever is on the disk. -/
def Delivers (content : String) : Prop :=
  ∀ disk, (l.result disk).2.files = delivered l.script l.env l.path content disk

end Launch

/-! ## The effect of a run -/

theorem course_signalled {status : Status} {detail : String} {t t' : List Event}
    (h : Signalled status detail t t') : course t' =
      .gdipShutdown :: .exitApp (if status = .ok then 0 else 1) :: .signal status detail ::
        course t := by
  obtain ⟨ops, rfl, hops⟩ := h
  have hnone : ops.filter Event.ofCourse = [] := by
    refine List.filter_eq_nil_iff.2 fun e he => ?_
    have := hops e he
    cases e <;> first | exact this.elim | exact Bool.false_ne_true
  simp only [course, List.filter_cons, List.filter_append, hnone, Event.ofCourse, List.nil_append,
    if_true]

theorem Launch.result_eq (l : Launch) (disk disk' : Disk) :
    ∃ out s s', l.result disk = (out, s) ∧ l.result disk' = (out, s') ∧ SameCourse s s' :=
  sameCourse_run l.script l.cfg l.passes l.env disk l.cfg.signalFile l.env.files l.env.scriptDir
    l.env.temp disk'

/-- A run leaves every disk alone, or it reports one status and delivers one content to them all. -/
theorem Launch.effect (l : Launch) : (∀ disk, (l.result disk).2.files = disk) ∨
    ∃ status detail tick, l.Reports status ∧ l.Delivers (signalContent status detail tick) := by
  obtain ⟨e, s, he, hleft⟩ := run_leaves l.script l.cfg l.passes l.env fun _ => none
  have hother (disk : Disk) : ∃ s', l.result disk = (.error e, s') ∧ SameCourse s s' := by
    obtain ⟨out, s₁, s', hrun, hrun', hsame⟩ := l.result_eq (fun _ => none) disk
    obtain ⟨rfl, rfl⟩ := Prod.mk.inj (he.symm.trans hrun)
    exact ⟨s', hrun', hsame⟩
  obtain ⟨hno, -⟩ | ⟨status, detail, rfl, -, t, hsignal⟩ := hleft
  · refine .inl fun disk => ?_
    obtain ⟨s', hs', -⟩ := hother disk
    obtain ⟨e', s₁, he', hleft'⟩ := run_leaves l.script l.cfg l.passes l.env disk
    obtain ⟨⟨⟩, rfl⟩ := Prod.mk.inj (hs'.symm.trans he')
    obtain ⟨-, hfiles⟩ | ⟨status, detail, rfl, -⟩ := hleft'
    · rw [hs', hfiles]
    · exact absurd rfl (hno _)
  · refine .inr ⟨status, detail, s.now, fun disk => ?_, fun disk => ?_⟩
    · obtain ⟨s', hs', -⟩ := hother disk
      rw [hs']
    · obtain ⟨s', hs', disk₁, path, trace, rfl, hcourse⟩ := hother disk
      obtain ⟨e', s₁, he', hleft'⟩ := run_leaves l.script l.cfg l.passes l.env disk
      obtain ⟨⟨⟩, rfl⟩ := Prod.mk.inj (hs'.symm.trans he')
      obtain ⟨hno, -⟩ | ⟨status', detail', hcode, hfiles, t', hsignal'⟩ := hleft'
      · exact absurd rfl (hno _)
      · have hsame := hcourse.trans (course_signalled hsignal)
        rw [course_signalled hsignal'] at hsame
        simp only [List.cons.injEq, Event.signal.injEq, true_and] at hsame
        obtain ⟨-, ⟨rfl, rfl⟩, -⟩ := hsame
        rw [hs']
        exact hfiles

/-! ## The last report -/

/-- The disk after runs of the two scripts one after the other. -/
def session (ls : List Launch) (disk : Disk) : Disk :=
  ls.foldl (fun disk l => (l.result disk).2.files) disk

theorem session_cons (l : Launch) (ls : List Launch) (disk : Disk) :
    session (l :: ls) disk = session ls (l.result disk).2.files := by
  rw [session, session, List.foldl_cons]

/-- The run signals, and its signal reaches `p`. -/
def Launch.Reaches (l : Launch) (disk : Disk) (p : String) : Prop :=
  (∃ status, l.Reports status) ∧ Reached l.script l.env l.path disk p

theorem Launch.kept_of_not_reaches {l : Launch} {disk : Disk} {p : String}
    (h : ¬l.Reaches disk p) : (l.result disk).2.files p = disk p := by
  obtain hkept | ⟨status, detail, tick, hreports, hdelivers⟩ := l.effect
  · rw [hkept]
  · rw [hdelivers disk]
    exact delivered_of_not_reached fun hreached => h ⟨⟨status, hreports⟩, hreached⟩

/-- A run of the wagon script and one of the alien script, which both reach their ends. -/
def bothScripts : List Launch :=
  [⟨.wagonMove, ⟨none, none, none⟩, 10, centeredEnv⟩,
    ⟨.alienWagonMove, ⟨none, none, none⟩, 10, centeredEnv⟩]

theorem forall_mem_bothScripts {P : Launch → Prop}
    (hwagon : P ⟨.wagonMove, ⟨none, none, none⟩, 10, centeredEnv⟩)
    (halien : P ⟨.alienWagonMove, ⟨none, none, none⟩, 10, centeredEnv⟩) :
    ∀ l ∈ bothScripts, P l := by
  intro l hl
  simp only [bothScripts, List.mem_cons, List.not_mem_nil, or_false] at hl
  obtain rfl | rfl := hl
  · exact hwagon
  · exact halien

theorem written_by_bothScripts :
    (session bothScripts (fun _ => none) "C:\\scripts\\wagon_done.ini").isSome = true := by
  decide +kernel

theorem doneFile_injective {f g : ScriptFile} {a b : String}
    (h : a ++ doneFile f = b ++ doneFile g) : f = g := by
  have hlast (c : String) (f : ScriptFile) :
      (c ++ doneFile f).toList.reverse[14]? = (doneFile f).toList.reverse[14]? := by
    rw [String.toList_append, List.reverse_append, List.getElem?_append_left]
    cases f <;> decide
  have hchar : (doneFile f).toList.reverse[14]? = (doneFile g).toList.reverse[14]? := by
    rw [← hlast a f, h, hlast b g]
  cases f <;> cases g <;> first | rfl | exact absurd hchar (by decide)

section Apart

variable {f : ScriptFile} {l : Launch} {disk disk' : Disk}

/-- The two disks hold the same wherever the script may report by default. -/
def SameResults (f : ScriptFile) (disk disk' : Disk) : Prop :=
  ∀ base, disk (base ++ doneFile f) = disk' (base ++ doneFile f)

theorem Launch.path_default (h : trim (l.cfg.signalFile.getD "") = "") :
    l.path = l.env.scriptDir ++ doneFile l.script := by
  rw [Launch.path, Config.signalPath, if_pos h]

theorem sameResults_update (hsame : SameResults f disk disk') {base : String}
    {c c' : Option String} (hc : c = c') :
    SameResults f (Function.update disk (base ++ doneFile f) c)
      (Function.update disk' (base ++ doneFile f) c') := by
  subst hc
  intro base'
  by_cases hp : base' ++ doneFile f = base ++ doneFile f
  · rw [hp, Function.update_self, Function.update_self]
  · rw [Function.update_of_ne hp, Function.update_of_ne hp]
    exact hsame base'

theorem sameResults_delivered (hsame : SameResults f disk disk') (env : Env)
    (base content : String) : SameResults f (delivered f env (base ++ doneFile f) content disk)
      (delivered f env (base ++ doneFile f) content disk') := by
  have hmain : SameResults f (afterMain env (base ++ doneFile f) content disk)
      (afterMain env (base ++ doneFile f) content disk') :=
    sameResults_update hsame (by rw [hsame base])
  rw [delivered, delivered, ← hsame base]
  split
  · exact hmain
  · exact sameResults_update hmain (by rw [hmain env.temp])

/-- A run of the other script leaves the results of this one alone. -/
theorem Launch.kept_of_other (hdefault : trim (l.cfg.signalFile.getD "") = "") (hl : l.script ≠ f)
    (disk : Disk) (base : String) :
    (l.result disk).2.files (base ++ doneFile f) = disk (base ++ doneFile f) := by
  refine Launch.kept_of_not_reaches ?_
  rintro ⟨-, ⟨hp, -⟩ | ⟨-, hp, -⟩⟩
  · exact hl (doneFile_injective ((l.path_default hdefault).symm.trans hp))
  · exact hl (doneFile_injective hp)

theorem Launch.sameResults (hdefault : trim (l.cfg.signalFile.getD "") = "") (hl : l.script = f)
    (hsame : SameResults f disk disk') :
    SameResults f (l.result disk).2.files (l.result disk').2.files := by
  obtain hkept | ⟨status, detail, tick, -, hdelivers⟩ := l.effect
  · rw [hkept, hkept]
    exact hsame
  · rw [hdelivers, hdelivers, l.path_default hdefault, hl]
    exact sameResults_delivered hsame l.env l.env.scriptDir _

theorem sameResults_session {ls : List Launch}
    (hdefault : ∀ l ∈ ls, trim (l.cfg.signalFile.getD "") = "") (hsame : SameResults f disk disk') :
    SameResults f (session ls disk) (session (ls.filter (·.script = f)) disk') := by
  induction ls generalizing disk disk' with
  | nil => exact hsame
  | cons l ls ih =>
      have hl := hdefault l List.mem_cons_self
      have hls : ∀ l ∈ ls, trim (l.cfg.signalFile.getD "") = "" := fun l' h' =>
        hdefault l' (List.mem_cons_of_mem l h')
      by_cases hf : l.script = f
      · rw [List.filter_cons_of_pos (by simpa using hf), session_cons, session_cons]
        exact ih hls (l.sameResults hl hf hsame)
      · rw [List.filter_cons_of_neg (by simpa using hf), session_cons]
        exact ih hls fun base => (l.kept_of_other hl hf disk base).trans (hsame base)

end Apart

/-- With default locations the two scripts do not disturb each other: what a session leaves at any
place where one of them reports is what its own runs alone would have left there. -/
theorem session_keeps_scripts_apart (f : ScriptFile) (ls : List Launch) (disk : Disk)
    (hdefault : ∀ l ∈ ls, trim (l.cfg.signalFile.getD "") = "") (base : String) :
    session ls disk (base ++ doneFile f) =
      session (ls.filter (·.script = f)) disk (base ++ doneFile f) :=
  sameResults_session hdefault (fun _ => rfl) base

theorem session_of_both_scripts :
    (session bothScripts (fun _ => none) ("C:\\scripts" ++ doneFile .wagonMove)).isSome = true ∧
    session bothScripts (fun _ => none) ("C:\\scripts" ++ doneFile .wagonMove) =
      session (bothScripts.filter (·.script = .wagonMove)) (fun _ => none)
        ("C:\\scripts" ++ doneFile .wagonMove) := by
  refine ⟨written_by_bothScripts, session_keeps_scripts_apart .wagonMove bothScripts _ ?_ _⟩
  exact forall_mem_bothScripts (by decide +kernel) (by decide +kernel)

end WagonMove
