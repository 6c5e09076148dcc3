import WagonMove.Endings
import WagonMove.SignalFile
import WagonMove.SignalText

/-!
# What a reader finds

A run works on the disk only in the signal that ends it, so the disk after a run is the disk before
it with at most two attempts on top. A reader that takes the first status of the first section
`Result` is not misled by any detail.
-/

namespace WagonMove

open Prog

abbrev Disk := String → Option String

/-! ## The disk after a signal -/

namespace FileOps

variable {ops : FileOps} {content : String} {old : Option String}

theorem leaves_of_not_reaches (h : ops.reaches old = false) : ops.leaves content old = old := by
  rw [leaves, if_neg (by simp [h])]

theorem leaves_of_reaches (h : ops.reaches old = true) :
    ops.leaves content old = some content ∧ ops.append = true ∨
      ops.leaves content old = none ∧ ops.append = false := by
  rw [leaves, if_pos h]
  cases ops.append with
  | true => exact .inl ⟨rfl, rfl⟩
  | false => exact .inr ⟨rfl, rfl⟩

theorem leaves_none : ops.leaves content none = some content ∨ ops.leaves content none = none := by
  cases h : ops.reaches none with
  | false => exact .inr (leaves_of_not_reaches h)
  | true => exact (leaves_of_reaches h).imp And.left And.left

end FileOps

section Delivered

variable (f : ScriptFile) (env : Env) (path content : String) (disk : Disk)

def afterMain : Disk :=
  Function.update disk path ((env.files .main).leaves content (disk path))

/-- The disk after `WriteSignalAndExit`, which tries the fallback if the main path has failed. -/
def delivered : Disk :=
  let p := env.temp ++ doneFile f
  if (env.files .main).writes (disk path) then afterMain env path content disk
  else Function.update (afterMain env path content disk) p
    ((env.files .fallback).leaves content (afterMain env path content disk p))

/-- An attempt that is made at `p` finds nothing there or removes what it finds. -/
def Reached (p : String) : Prop :=
  path = p ∧ (env.files .main).reaches (disk p) = true ∨
    (env.files .main).writes (disk path) = false ∧ env.temp ++ doneFile f = p ∧
      (env.files .fallback).reaches (disk p) = true

variable {f env path content disk} {p : String}

theorem afterMain_eq_self (h : path = p → (env.files .main).reaches (disk p) = false) :
    afterMain env path content disk p = disk p := by
  by_cases hp : path = p
  · subst hp
    rw [afterMain, Function.update_self, FileOps.leaves_of_not_reaches (h rfl)]
  · rw [afterMain, Function.update_of_ne (Ne.symm hp)]

theorem delivered_of_not_reached (h : ¬Reached f env path disk p) :
    delivered f env path content disk p = disk p := by
  have hmain : afterMain env path content disk p = disk p :=
    afterMain_eq_self fun hp => Bool.eq_false_of_not_eq_true fun hr => h (.inl ⟨hp, hr⟩)
  rw [delivered]
  split
  · exact hmain
  · rename_i hfailed
    by_cases hp : env.temp ++ doneFile f = p
    · subst hp
      have hmissed : (env.files .fallback).reaches (disk (env.temp ++ doneFile f)) = false :=
        Bool.eq_false_of_not_eq_true fun hr =>
          h (.inr ⟨Bool.eq_false_of_not_eq_true hfailed, rfl, hr⟩)
      rw [Function.update_self, hmain, FileOps.leaves_of_not_reaches hmissed]
    · rw [Function.update_of_ne (Ne.symm hp), hmain]

variable (content) in
/-- What is reached is replaced, or lost with a refused append. -/
theorem delivered_of_reached (h : Reached f env path disk p) :
    delivered f env path content disk p = some content ∨
      delivered f env path content disk p = none ∧ ∃ a, (env.files a).append = false := by
  by_cases hmain : path = p ∧ (env.files .main).reaches (disk p) = true
  · obtain ⟨rfl, hr⟩ := hmain
    have hself : afterMain env path content disk path =
        (env.files .main).leaves content (disk path) := Function.update_self _ _ _
    obtain ⟨hleft, happend⟩ | ⟨hleft, happend⟩ := FileOps.leaves_of_reaches hr
    · rw [delivered, if_pos (by rw [FileOps.writes, hr, happend]; rfl), hself, hleft]
      exact .inl rfl
    · rw [delivered, if_neg (by simp [FileOps.writes, happend])]
      by_cases hp : env.temp ++ doneFile f = path
      · subst hp
        rw [Function.update_self, hself, hleft]
        exact FileOps.leaves_none.imp_right fun h => ⟨h, .main, happend⟩
      · rw [Function.update_of_ne (Ne.symm hp), hself, hleft]
        exact .inr ⟨rfl, .main, happend⟩
  · obtain ⟨hfailed, rfl, hr⟩ := h.resolve_left hmain
    have hkept : afterMain env path content disk (env.temp ++ doneFile f) =
        disk (env.temp ++ doneFile f) :=
      afterMain_eq_self fun hp => Bool.eq_false_of_not_eq_true fun hr => hmain ⟨hp, hr⟩
    rw [delivered, if_neg (by simp [hfailed]), Function.update_self, hkept]
    exact (FileOps.leaves_of_reaches hr).imp And.left fun h => ⟨h.1, .fallback, h.2⟩

end Delivered

theorem delivered_writeSignalAndExit {α : Type} (f : ScriptFile) (status : Status) (detail : String)
    (r : Ctx) (s : St) : wp (writeSignalAndExit f status detail : Ahk α) (fun _ _ => False)
      (fun _ s' => s'.files = delivered f r.env s.signalFile
        (signalContent status detail s'.now) s.files) r s := by
  have hsilent {β : Type} {x : Ahk β} {Q : β → St → Prop} {E : Abort Err → St → Prop} {s₀ : St}
      (hx : Does (Quiet fun _ => False) x) (h : ∀ b s₁, s₁.files = s₀.files →
        s₁.signalFile = s₀.signalFile → Q b s₁) : wp x Q E r s₀ :=
    hx.wp fun b s₁ hq => h b s₁ hq.files hq.signalFile
  have hticked {Q : ℕ → St → Prop} {E : Abort Err → St → Prop} {s₀ : St}
      (h : ∀ s₁, s₁.files = s₀.files → s₁.signalFile = s₀.signalFile → Q s₁.now s₁) :
      wp tickCount Q E r s₀ :=
    wp_tickCount.2 (h { s₀ with asked := _, now := s₀.now + r.env.drift s₀.asked } rfl rfl)
  have hwrite (a : Attempt) (path content : String) (s₀ : St) :=
    wp_and (tried_tryWrite a path content r s₀) (wrote_tryWrite a path content r s₀)
  rw [writeSignalAndExit, wp_bind, wp_log, wp_bind]
  refine hsilent quiet_hideSpecialMarker fun _ s₁ hf₁ hp₁ => ?_
  rw [wp_bind]
  refine hsilent quiet_hideStatusOverlay fun _ s₂ hf₂ hp₂ => ?_
  rw [wp_bind]
  refine hticked fun s₃ hf₃ hp₃ => ?_
  have hfiles : s₃.files = s.files := hf₃.trans (hf₂.trans hf₁)
  have hpath : s₃.signalFile = s.signalFile := hp₃.trans (hp₂.trans hp₁)
  rw [wp_bind, wp_gets, wp_bind, wp_constant, wp_bind, hpath]
  refine wp_mono (hwrite .main _ _ s₃) (fun done s₄ h₄ => ?_) fun _ _ hf => hf.1.elim
  have hmain : s₄.files =
      afterMain r.env s.signalFile (signalContent status detail s₃.now) s.files := by
    rw [h₄.1.files, hfiles, afterMain]
  have hdone : done = (r.env.files .main).writes (s.files s.signalFile) := hfiles ▸ h₄.1.done
  have hnow : s₄.now = s₃.now := h₄.2.now
  rw [wp_bind]
  cases done with
  | true =>
      rw [if_pos rfl, wp_pure, wp_exitApp, St.record_now, St.record_now, hnow]
      rw [delivered, if_pos hdone.symm]
      exact hmain
  | false =>
      rw [if_neg Bool.false_ne_true]
      refine wp_mono (hwrite .fallback _ _ s₄) (fun b s₅ h₅ => ?_) fun _ _ hf => hf.1.elim
      rw [wp_exitApp, St.record_now, St.record_now, h₅.2.now, hnow]
      rw [delivered, ← hdone, if_neg Bool.false_ne_true, ← hmain]
      exact h₅.1.files

/-! ## The disk after a run -/

theorem Status.eq_of_code {status status' : Status}
    (h : (if status = .ok then 0 else 1) = if status' = .ok then 0 else 1) : status = status' := by
  cases status <;> cases status' <;> first | rfl | cases h

/-- A property of no concern to keys, naps and the flag holds until the run ends. -/
theorem Loose.entryPoint {f : ScriptFile} {D : Ctx → Prop} {I : St → Prop}
    {E : Abort Err → St → Prop} (h : Loose f D I E) {passes : ℕ} {node : Node}
    (hsearch : Keeps D I E (search f passes node)) (caught : ∀ e s, E (.thrown e) s → I s)
    (returned : ∀ ok s, I s → I (s.record (.flowReturned ok)))
    (running : ∀ b s, I s → I { s with running := b })
    (signal : ∀ {α : Type} status detail,
      Leads D I (fun _ _ => False) E (writeSignalAndExit f status detail : Ahk α)) :
    Leads D I (fun _ _ => False) E (WagonMove.entryPoint f passes node) := by
  have hrunning (b : Bool) : Keeps D I E (setRunning b) := .update (running b)
  have hstatus (text : String) : Keeps D I E (setStatus text) := h.quiet (calm_setStatus text)
  have hwrapUp (status : Status) (text : String) (ms : ℕ) (detail : String) {α : Type} :
      Leads D I (fun _ _ => False) E (do
        releaseSpecialKeys
        hideSpecialMarker
        setRunning false
        setStatus text
        WagonMove.sleep .ending ms
        (writeSignalAndExit f status detail : Ahk α)) :=
    (h.sendUp specialKeys).leads.bind fun _ => (h.quiet quiet_hideSpecialMarker).leads.bind fun _ =>
      (hrunning false).leads.bind fun _ => (hstatus text).leads.bind fun _ =>
        (h.sleep .ending ms).leads.bind fun _ => signal status detail
  have hreport (ok : Bool) : Leads D I (fun _ _ => False) E (reportResult f ok) := by
    cases ok <;> exact hwrapUp _ _ _ _
  have htried : Leads D I (fun _ => I) E (rescue (runFlow f passes node) (reportError f)) := by
    refine (leads_runFlow (h.flowRules hsearch).flow returned).rescue (fun err => ?_)
      fun e s _ he => he
    exact (hwrapUp .error _ _ _).mono (fun s hs => caught err s hs) fun _ _ hf => hf.elim
  refine (h.quiet calm_createStatusOverlayGui).leads.bind fun _ =>
    (h.quiet (asked_getRobloxHwnd.mono fun _ _ => Asked.quiet)).leads.bind fun _ =>
      .ite (fun _ => signal .error _) fun _ => ?_
  exact (hrunning true).leads.bind fun _ => (hstatus _).leads.bind fun _ => htried.bind hreport

/-- The run has done nothing to the disk. -/
def Untouched (path : String) (disk : Disk) (s : St) : Prop := s.files = disk ∧ s.signalFile = path

def Leaves (f : ScriptFile) (env : Env) (path : String) (disk : Disk) : Abort Err → St → Prop
  | .exited code, s => ∃ status detail, code = (if status = .ok then 0 else 1) ∧
      s.files = delivered f env path (signalContent status detail s.now) disk ∧
      ∃ t, Signalled status detail t s.trace
  | _, s => Untouched path disk s

section Runs

variable {f : ScriptFile} {env : Env} {path : String} {disk : Disk}

theorem Untouched.quiet {p : Event → Prop} {s s' : St} (hq : Quiet p s s')
    (hs : Untouched path disk s) : Untouched path disk s' :=
  ⟨hq.files.trans hs.1, hq.signalFile.trans hs.2⟩

theorem Untouched.sleep {D : Ctx → Prop} (site : Site) (ms : ℕ) :
    Keeps D (Untouched path disk) (Leaves f env path disk) (sleep site ms) := fun _ _ _ hs =>
  wp_sleep site ms (fun _ => hs) fun _ => hs

theorem Untouched.signal {α : Type} (status : Status) (detail : String) :
    Leads (fun r => r.env = env) (Untouched path disk) (fun _ _ => False) (Leaves f env path disk)
      (writeSignalAndExit f status detail : Ahk α) := by
  rintro r rfl s ⟨rfl, rfl⟩
  refine wp_mono (wp_and (delivered_writeSignalAndExit f status detail r s)
    (signalled_writeSignalAndExit f status detail r s)) (fun _ _ hf => hf.1) ?_
  rintro _ s' ⟨hfiles, rfl, hsignal⟩
  exact ⟨status, detail, rfl, hfiles, s.trace, hsignal⟩

theorem untouched_loose (f : ScriptFile) (env : Env) (path : String) (disk : Disk) :
    Loose f (fun r => r.env = env) (Untouched path disk) (Leaves f env path disk) where
  enter _ _ h := h
  thrown _ _ hs := hs
  plain _ _ hq hs := hs.quiet hq
  sleep := Untouched.sleep
  find node := keeps_findTargetColor f node (fun _ _ hq hs => hs.quiet hq) (Untouched.sleep _ _)
  signalError := Untouched.signal .error

theorem untouched_entryPoint (f : ScriptFile) (env : Env) (path : String) (disk : Disk)
    (passes : ℕ) (node : Node) : Leads (fun r => r.env = env) (Untouched path disk)
      (fun _ _ => False) (Leaves f env path disk) (entryPoint f passes node) := by
  have hloose := untouched_loose f env path disk
  have hsearch := (hloose.kept node).search (fun _ hs => hs) passes
  exact hloose.entryPoint hsearch (fun _ _ hs => hs) (fun _ _ hs => hs) (fun _ _ hs => hs)
    fun status detail => Untouched.signal status detail

end Runs

/-- The disk changes only if the run exits, and then as its signal says. -/
theorem run_leaves (f : ScriptFile) (cfg : Config) (passes : ℕ) (env : Env) (disk : Disk) :
    ∃ e s, execute f cfg passes env disk = (.error e, s) ∧
      ((∀ code, e ≠ .exited code) ∧ s.files = disk ∨
        ∃ status detail, e = .exited (if status = .ok then 0 else 1) ∧
          s.files = delivered f env (cfg.signalPath f env.scriptDir)
            (signalContent status detail s.now) disk ∧ ∃ t, Signalled status detail t s.trace) := by
  cases ht : integer (trim (cfg.tolerance.getD "0")) with
  | none => exact ⟨_, _, execute_of_none passes ht, .inl ⟨by simp, rfl⟩⟩
  | some tolerance =>
      rw [execute_of_some passes ht]
      have hentry (path : String) (node : Node) : Untouched path disk (.atEntry path node disk) :=
        ⟨rfl, rfl⟩
      obtain ⟨e, s, he, hleft⟩ := exists_end (untouched_entryPoint f env _ disk passes
        (cfg.node tolerance) { env := env } rfl _ (hentry (cfg.signalPath f env.scriptDir) _))
      refine ⟨e, s, he, ?_⟩
      cases e with
      | thrown err | closed | starved => exact .inl ⟨by simp, hleft.1⟩
      | exited code =>
          obtain ⟨status, detail, rfl, hfiles⟩ := hleft
          exact .inr ⟨status, detail, rfl, hfiles⟩

/-! ## Reading the status -/

/-- The status as a reader takes it that stops at the first match. -/
def firstStatus (cr : Bool) (text : String) : Option (List Char) :=
  Ini.lookup (lineBreak cr) isBlank text.toList "Result".toList "status".toList

/-- No detail can put another status before the one that has been signalled. -/
theorem firstStatus_signalContent (cr : Bool) (status : Status) (detail : String) (tick : ℕ) :
    firstStatus cr (signalContent status detail tick) = some status.text.toList := by
  have hnewline : lineBreak cr '\n' = true := by cases cr <;> rfl
  have hheader : ∀ c ∈ "[Result]".toList, lineBreak cr c = false := by
    cases cr <;> exact List.all_iff_forall_prop.1 (by decide)
  have hstatus : ∀ c ∈ "status".toList ++ '=' :: status.text.toList, lineBreak cr c = false := by
    cases cr <;> cases status <;> exact List.all_iff_forall_prop.1 (by decide)
  have hentry : Ini.readLine isBlank ("status".toList ++ '=' :: status.text.toList) =
      .entry "status".toList status.text.toList := by
    cases status <;> rfl
  obtain ⟨ls, hlines⟩ : ∃ ls, Ini.lines (lineBreak cr) isBlank
      (signalContent status detail tick).toList =
        .header "Result".toList :: .entry "status".toList status.text.toList :: ls := by
    rw [toList_signalContent_lines, Ini.lines_append hheader hnewline,
      Ini.lines_append hstatus hnewline, hentry]
    exact ⟨_, rfl⟩
  exact Ini.lookup_of_lines hlines

/-- The path names one file: it is no pattern, nor the `*` of the standard output. -/
def IsLiteral (path : String) : Prop := '*' ∉ path.toList ∧ '?' ∉ path.toList

theorem IsLiteral.doneFile {dir : String} (h : IsLiteral dir) (f : ScriptFile) :
    IsLiteral (dir ++ doneFile f) := by
  have hname : '*' ∉ (WagonMove.doneFile f).toList ∧ '?' ∉ (WagonMove.doneFile f).toList := by
    cases f <;> decide
  constructor
  · rw [String.toList_append, List.mem_append]
    exact fun hmem => hmem.elim h.1 hname.1
  · rw [String.toList_append, List.mem_append]
    exact fun hmem => hmem.elim h.2 hname.2

/-- What a reader finds at `p` after a signal of this status, `disk` being the disk before it. -/
structure ReadsAt (cr : Bool) (f : ScriptFile) (env : Env) (path : String) (disk : Disk)
    (status : Status) (p : String) (found : Option String) : Prop where
  isLiteral : Reached f env path disk p → IsLiteral p
  untouched : ¬Reached f env path disk p → found = disk p
  status_eq : Reached f env path disk p → ∀ c, found = some c →
    firstStatus cr c = some status.text.toList
  lost : Reached f env path disk p → found = none → ∃ a, (env.files a).append = false

theorem readsAt_delivered (cr : Bool) (f : ScriptFile) {env : Env} {path : String} (disk : Disk)
    (hpath : IsLiteral path) (htemp : IsLiteral env.temp) (status : Status) (detail : String)
    (tick : ℕ) (p : String) :
    ReadsAt cr f env path disk status p
      (delivered f env path (signalContent status detail tick) disk p) where
  isLiteral h := by
    obtain ⟨rfl, -⟩ | ⟨-, rfl, -⟩ := h
    · exact hpath
    · exact htemp.doneFile f
  untouched := delivered_of_not_reached
  status_eq h c hc := by
    obtain hnew | ⟨hnone, -⟩ := delivered_of_reached (signalContent status detail tick) h
    · obtain rfl : signalContent status detail tick = c := Option.some.inj (hnew.symm.trans hc)
      exact firstStatus_signalContent cr status detail tick
    · rw [hnone] at hc
      cases hc
  lost h hnone := by
    obtain hnew | ⟨-, hrefused⟩ := delivered_of_reached (signalContent status detail tick) h
    · rw [hnone] at hnew
      cases hnew
    · exact hrefused

/-- A reader is told what the flow has returned. After an exit the first status at each path that
the signal has reached is `ok` exactly if the flow has returned true, whatever the detail, and the
path is empty only after a refused append; all else on the disk is as before the run, also when the
run ends in any other way. Where it reports must be no pattern, or other files would be deleted. -/
theorem run_tells_reader (cr : Bool) (f : ScriptFile) (cfg : Config) (passes : ℕ) (env : Env)
    (disk : Disk) (hpath : IsLiteral (cfg.signalPath f env.scriptDir))
    (htemp : IsLiteral env.temp) :
    ∃ e s, execute f cfg passes env disk = (.error e, s) ∧
      ((∀ code, e ≠ .exited code) ∧ s.files = disk ∨
        ∃ status, e = .exited (if status = .ok then 0 else 1) ∧
          (status = .ok ↔ .flowReturned true ∈ s.trace) ∧
          ∀ p, ReadsAt cr f env (cfg.signalPath f env.scriptDir) disk status p (s.files p)) := by
  obtain ⟨e, s, he, hleft⟩ := run_leaves f cfg passes env disk
  refine ⟨e, s, he, hleft.imp_right ?_⟩
  rintro ⟨status, detail, rfl, hfiles, -⟩
  refine ⟨status, rfl, ?_, fun p => ?_⟩
  · cases ht : integer (trim (cfg.tolerance.getD "0")) with
    | none => cases (execute_of_none passes ht).symm.trans he
    | some tolerance =>
        obtain ⟨e', s', he', hend⟩ := readable_run_ends passes env disk ht
        obtain ⟨⟨⟩, rfl⟩ := Prod.mk.inj (he.symm.trans he')
        obtain ⟨status', detail', t, hcode, hreport⟩ := hend
        obtain ⟨ops, htrace, hops⟩ := hreport.signalled
        rw [Status.eq_of_code hcode, hreport.truthful, htrace]
        have hno : Event.flowReturned true ∉ ops := fun hmem => hops _ hmem
        simp [hno]
  · rw [hfiles]
    exact readsAt_delivered cr f disk hpath htemp status detail s.now p

/-- The colour is always in the middle of the window. -/
def centeredEnv : Env := { Env.idle with pixelSearch := fun _ _ => .hit 400 300 }

abbrev centeredRun : Except (Abort Err) Unit × St :=
  execute .wagonMove ⟨none, none, none⟩ 10 centeredEnv fun _ => none

theorem centered_run_is_read : centeredRun.1 = .error (.exited 0) ∧
    ∃ c, centeredRun.2.files "C:\\scripts\\wagon_done.ini" = some c ∧
      firstStatus false c = some "ok".toList := by
  have hexit : centeredRun.1 = .error (.exited 0) := by decide +kernel
  have hpath : Config.signalPath ⟨none, none, none⟩ .wagonMove centeredEnv.scriptDir =
      "C:\\scripts\\wagon_done.ini" := by decide +kernel
  have hliteral : IsLiteral "C:\\scripts\\wagon_done.ini" := ⟨by decide, by decide⟩
  have htemp : IsLiteral centeredEnv.temp := ⟨by decide, by decide⟩
  obtain ⟨e, s, he, hrun⟩ := run_tells_reader false .wagonMove ⟨none, none, none⟩ 10 centeredEnv
    (fun _ => none) (hpath ▸ hliteral) htemp
  have hs : centeredRun = (.error e, s) := he
  rw [hs] at hexit ⊢
  obtain rfl : e = .exited 0 := Except.error.inj hexit
  obtain ⟨hno, -⟩ | ⟨status, hcode, -, hreads⟩ := hrun
  · exact absurd rfl (hno 0)
  · obtain rfl : status = .ok := Status.eq_of_code (Abort.exited.inj hcode).symm
    have hreached : Reached .wagonMove centeredEnv
        (Config.signalPath ⟨none, none, none⟩ .wagonMove centeredEnv.scriptDir) (fun _ => none)
        "C:\\scripts\\wagon_done.ini" := .inl ⟨hpath, by decide⟩
    have hwritten : (s.files "C:\\scripts\\wagon_done.ini").isSome = true := by
      have hfiles : (centeredRun.2.files "C:\\scripts\\wagon_done.ini").isSome = true := by
        decide +kernel
      rwa [hs] at hfiles
    obtain ⟨c, hc⟩ := Option.isSome_iff_exists.1 hwritten
    exact ⟨rfl, c, hc, (hreads _).status_eq hreached c hc⟩

end WagonMove
