import Mathlib.Data.Finset.Card
import WagonMove.UpdaterPaths

/-!
# The stages of an update

`Held` is what all moments of a run have in common, `Fetching`, `Ready` and `Installed` say where
the program and its download stand, and `Ends` how a run can end in each of them. The rules of the
built-ins are those of properties that neither questions nor other events affect.
-/

namespace WagonMove.Updater

open Prog

/-- The shell writes no file but the one that a download is for. -/
def Shell (env : Env) : Prop := ∀ n command url dest, downloadArgs command = some (url, dest) →
  ∀ w ∈ env.writes n command, w.1 = dest

/-- Each download of the program ends with a file of at least the size that is asked for. -/
def GoodDownloads (env : Env) : Prop := ∀ n, ∃ ws file,
  env.writes n (downloadCommand exeUrl env.exeTmp) = ws ++ [(env.exeTmp, some file)] ∧
    minExeBytes ≤ file.length

def Env.files (env : Env) : List String := [env.exeDest, env.exeTmp, env.ahkDest, env.ahkTmp]

/-- The operations that put the download in the place of the program. -/
def Env.replaces (env : Env) (op : Op) : Bool :=
  op = .delete env.exeDest || op = .move env.exeTmp env.exeDest

/-- The operations on the way to a whole download. -/
def Env.fetches (env : Env) (op : Op) : Bool :=
  op = .delete env.exeTmp || op = .size env.exeTmp ||
    op = .command (downloadCommand exeUrl env.exeTmp)

/-- What keeps a download from being whole. -/
def Hindered (env : Env) : Prop :=
  (∃ n op, env.fetches op = true ∧ env.refuses n op = true) ∨ ¬GoodDownloads env

def Event.refusal (env : Env) : Event → Bool
  | .failed op => env.replaces op
  | _ => false

def Event.launch : Event → Option (String × File)
  | .ran path program => some (path, program)
  | _ => none

/-- The attempts to replace the program that have failed. -/
def St.refusals (env : Env) (s : St) : ℕ := s.trace.countP (Event.refusal env)

def St.launches (s : St) : List (String × File) := s.trace.filterMap Event.launch

/-- A disk in the course of an update to `new`, which is `none` while there is no whole download. -/
structure Midway (env : Env) (old : Disk) (new : Option File) (d : Disk) : Prop where
  others : ∀ path ∉ env.files, d path = old path
  program : d env.exeDest = old env.exeDest ∨ d env.exeDest = none ∨ d env.exeDest = new
  startable : d env.exeDest = old env.exeDest ∨
    new ≠ none ∧ (d env.exeTmp = new ∨ d env.exeDest = new)

structure Held (env : Env) (old : Disk) (new : Option File) (launches : List (String × File))
    (refusals : ℕ) (s : St) : Prop where
  moments : ∀ d ∈ s.moments, Midway env old new d
  launched : s.launches = launches
  failed : s.refusals env = refusals
  refused : ∃ asked : Finset ℕ, asked.card = refusals ∧
    ∀ n ∈ asked, n < s.asked ∧ ∃ op, env.replaces op = true ∧ env.refuses n op = true

/-! ## The stages of an update -/

def Fetching (env : Env) (old : Disk) (s : St) : Prop := Held env old none [] 0 s

structure Ready (env : Env) (old : Disk) (new : File) (refusals : ℕ) (s : St) : Prop where
  size : minExeBytes ≤ new.length
  held : Held env old (some new) [] refusals s
  beside : s.disk env.exeTmp = some new
  program : s.disk env.exeDest = old env.exeDest ∨ s.disk env.exeDest = none

structure Installed (env : Env) (old : Disk) (new : File) (launches : List (String × File))
    (refusals : ℕ) (s : St) : Prop where
  size : minExeBytes ≤ new.length
  held : Held env old (some new) launches refusals s
  program : s.disk env.exeDest = some new
  beside : s.disk env.exeTmp = none

/-- How an update that has fetched nothing yet ends. -/
structure GivenUp (env : Env) (old : Disk) (e : Abort Err) (s : St) : Prop where
  fetching : Fetching env old s
  closed : e = .closed → ∃ n, env.closes n = true
  hindered : e ≠ .closed → Hindered env ∧ (e = .exited 1 ∨ ∃ err, e = .thrown err)

structure NotReplaced (env : Env) (old : Disk) (new : File) (refusals : ℕ) (e : Abort Err)
    (s : St) : Prop where
  ready : Ready env old new refusals s
  closed : e = .closed → refusals ≤ 20 ∧ ∃ n, env.closes n = true
  exited : e ≠ .closed → e = .exited 1 ∧ refusals = 20

structure Done (env : Env) (old : Disk) (new : File) (launches : List (String × File))
    (refusals : ℕ) (e : Abort Err) (s : St) : Prop where
  installed : Installed env old new launches refusals s
  refusals : refusals ≤ 19
  launches : launches = [] ∨ launches = [(env.exeDest, new)]
  closed : e = .closed → ∃ n, env.closes n = true
  exited : e ≠ .closed → e = .exited 0

/-- How a run of the updater ends. -/
def Ends (env : Env) (old : Disk) (e : Abort Err) (s : St) : Prop :=
  GivenUp env old e s ∨ (∃ new refusals, NotReplaced env old new refusals e s) ∨
    ∃ new launches refusals, Done env old new launches refusals e s

/-! ## Events and questions aside -/

/-- Neither a launch nor a failed replacement. -/
def Event.isAside (env : Env) (e : Event) : Bool := !e.refusal env && e.launch.isNone

/-- A property that neither questions nor events aside affect. -/
structure Steady (env : Env) (P : St → Prop) : Prop where
  asked : ∀ s n, s.asked ≤ n → P s → P { s with asked := n }
  aside : ∀ s e, e.isAside env = true → P s → P (s.record e)

section Steady

variable {env : Env} {old : Disk} {new : Option File} {file : File}
  {launches : List (String × File)} {refusals : ℕ}

theorem Held.steady : Steady env (Held env old new launches refusals) where
  asked s n hn h := by
    refine ⟨h.moments, h.launched, h.failed, ?_⟩
    obtain ⟨asked, hcard, hrefused⟩ := h.refused
    exact ⟨asked, hcard, fun m hm => ⟨(hrefused m hm).1.trans_le hn, (hrefused m hm).2⟩⟩
  aside s e he h := by
    rw [Event.isAside, Bool.and_eq_true, Bool.not_eq_true', Option.isNone_iff_eq_none] at he
    refine ⟨h.moments, ?_, ?_, h.refused⟩
    · rw [← h.launched, St.launches, St.record, List.filterMap_cons_none he.2]
      rfl
    · rw [← h.failed, St.refusals, St.record, List.countP_cons_of_neg (by simp [he.1])]
      rfl

theorem Fetching.steady : Steady env (Fetching env old) := Held.steady

theorem Ready.steady : Steady env (Ready env old file refusals) where
  asked s n hn h := ⟨h.size, Held.steady.asked s n hn h.held, h.beside, h.program⟩
  aside s e he h := ⟨h.size, Held.steady.aside s e he h.held, h.beside, h.program⟩

theorem Installed.steady : Steady env (Installed env old file launches refusals) where
  asked s n hn h := ⟨h.size, Held.steady.asked s n hn h.held, h.program, h.beside⟩
  aside s e he h := ⟨h.size, Held.steady.aside s e he h.held, h.program, h.beside⟩

theorem Held.change {s : St} (h : Held env old new launches refusals s) {d : Disk}
    (hd : Midway env old new d) : Held env old new launches refusals (s.change d) :=
  ⟨List.forall_mem_cons.2 ⟨hd, h.moments⟩, h.launched, h.failed, h.refused⟩

end Steady

/-! ## Rules of the built-ins -/

section Rules

variable {α : Type} {env : Env} {s : St} {E : Abort Err → St → Prop}

@[simp] theorem wp_log (e : Event) {Q : Unit → St → Prop} :
    wp (log e) Q E env s ↔ Q () (s.record e) := by rw [log, wp_update]

@[simp] theorem wp_ask (q : Env → ℕ → α) {Q : α → St → Prop} :
    wp (ask q) Q E env s ↔ Q (q env s.asked) { s with asked := s.asked + 1 } := by
  rw [ask, wp.eq_def]

@[simp] theorem wp_constant (q : Env → α) {Q : α → St → Prop} :
    wp (constant q) Q E env s ↔ Q (q env) s := by rw [constant, wp.eq_def]

theorem wp_attempt (op : Op) (possible : Disk → Bool) {Q : Unit → St → Prop}
    (hdone : possible s.disk = true → Q () { s with asked := s.asked + 2 })
    (hfailed : ∀ err, env.refuses s.asked op = true ∨ possible s.disk = false →
      E (.thrown err) (St.record (.failed op) { s with asked := s.asked + 2 })) :
    wp (attempt op possible) Q E env s := by
  simp only [attempt, wp_bind, wp_ask, wp_gets]
  apply wp_ite
  · intro h
    rw [wp_bind, wp_log, wp_raise]
    exact hfailed _ (by simpa using h)
  · intro h
    rw [wp_pure]
    simp only [Bool.or_eq_true, Bool.not_eq_true', not_or, Bool.not_eq_false] at h
    exact hdone h.2

variable {P : St → Prop}

theorem Steady.wait (hP : Steady env P) (hclosed : ∀ s, P s → (∃ n, env.closes n = true) →
    E .closed s) : Leads (· = env) P (fun _ => P) E wait := by
  rintro _ rfl s hs
  rw [Updater.wait, wp_bind, wp_ask]
  have hs' := hP.asked s (s.asked + 1) (Nat.le_succ _) hs
  exact wp_ite (fun h => (wp_abort _).2 (hclosed _ hs' ⟨_, h⟩)) fun _ => (wp_pure _).2 hs'

theorem Steady.sleep (hP : Steady env P) (ms : ℕ) (hclosed : ∀ s, P s →
    (∃ n, env.closes n = true) → E .closed s) : Leads (· = env) P (fun _ => P) E (sleep ms) :=
  .bind (fun _ _ s hs => (wp_log _).2 (hP.aside s _ rfl hs)) fun _ => hP.wait hclosed

theorem Steady.msgBox (hP : Steady env P) (text title : String) (options : ℕ)
    (hclosed : ∀ s, P s → (∃ n, env.closes n = true) → E .closed s) :
    Leads (· = env) P (fun _ => P) E (msgBox text title options) :=
  .bind (fun _ _ s hs => (wp_log _).2 (hP.aside s _ rfl hs)) fun _ => hP.wait hclosed

theorem Steady.attempt (hP : Steady env P) {op : Op} (hop : env.replaces op = false)
    (possible : Disk → Bool) (hfailed : ∀ err s, P s →
      (∃ n, env.refuses n op = true) ∨ possible s.disk = false → E (.thrown err) s) :
    Leads (· = env) P (fun _ s => P s ∧ possible s.disk = true) E (attempt op possible) := by
  rintro _ rfl s hs
  have hs' := hP.asked s (s.asked + 2) (Nat.le_add_right _ _) hs
  refine wp_attempt op possible (fun h => ⟨hs', h⟩) fun err h => hfailed err _ ?_ ?_
  · exact hP.aside _ _ (by simp [Event.isAside, Event.refusal, Event.launch, hop]) hs'
  · exact h.imp_left fun h => ⟨_, h⟩

theorem Steady.fileDelete (hP : Steady env P) {path : String} {P' : St → Prop}
    (hop : env.replaces (.delete path) = false)
    (hdeleted : ∀ s, P s → P' (s.change (Function.update s.disk path none)))
    (hfailed : ∀ err s, P s → (∃ n, env.refuses n (.delete path) = true) ∨ s.disk path = none →
      E (.thrown err) s) : Leads (· = env) P (fun _ => P') E (fileDelete path) := by
  refine .bind (hP.attempt hop _ fun err s hs h => hfailed err s hs ?_) fun _ _ _ s hs =>
    (wp_update _).2 (hdeleted s hs.1)
  exact h.imp_right fun h => by simpa using h

theorem Steady.deleteIfExists (hP : Steady env P) {path : String} {P' : St → Prop}
    (hop : env.replaces (.delete path) = false)
    (hgone : ∀ s, P s → s.disk path = none → P' s)
    (hdeleted : ∀ s, P s → P' (s.change (Function.update s.disk path none)))
    (hfailed : ∀ err s, P s → (∃ n, env.refuses n (.delete path) = true) → E (.thrown err) s) :
    Leads (· = env) P (fun _ => P') E (deleteIfExists path) := by
  let There (s : St) : Prop := P s ∧ (s.disk path).isSome = true
  have hthere : Steady env There :=
    ⟨fun s n hn h => ⟨hP.asked s n hn h.1, h.2⟩, fun s e he h => ⟨hP.aside s e he h.1, h.2⟩⟩
  have hdelete : Leads (· = env) There (fun _ => P') E (Updater.fileDelete path) := by
    refine hthere.fileDelete hop (fun s hs => hdeleted s hs.1) fun err s hs h => ?_
    exact hfailed err s hs.1 (h.resolve_right fun hnone => by simp [There, hnone] at hs)
  rintro _ rfl s hs
  rw [Updater.deleteIfExists, wp_bind, fileExist, wp_gets]
  refine wp_ite (fun h => hdelete _ rfl s ⟨hs, h⟩) fun h => (wp_pure _).2 (hgone s hs ?_)
  simpa using h

/-- The writes of a command go to one file, and the last of them is what it holds in the end. -/
theorem wp_write {dest : String} (hchange : ∀ s content, P s →
    P (s.change (Function.update s.disk dest content))) {ws : List (String × Option File)}
    (hws : ∀ w ∈ ws, w.1 = dest) (hs : P s) :
    wp (write ws) (fun _ s' => P s' ∧ s'.disk dest = ws.getLast?.elim (s.disk dest) Prod.snd) E
      env s := by
  induction ws generalizing s with
  | nil => exact (wp_pure _).2 ⟨hs, rfl⟩
  | cons w ws ih =>
      obtain ⟨path, content⟩ := w
      obtain rfl : path = dest := hws (path, content) List.mem_cons_self
      rw [write, wp_bind, wp_update]
      refine wp_imp (ih (fun w hw => hws w (List.mem_cons_of_mem _ hw)) (hchange s content hs)) ?_
      intro u s' h
      refine ⟨h.1, h.2.trans ?_⟩
      rw [List.getLast?_cons]
      cases ws.getLast? with
      | none => exact Function.update_self ..
      | some w => rfl

theorem Steady.tryFileDelete (hP : Steady env P) {path : String}
    (hop : env.replaces (.delete path) = false)
    (hdeleted : ∀ s, P s → P (s.change (Function.update s.disk path none))) :
    Leads (· = env) P (fun _ => P) E (tryFileDelete path) := by
  have hdelete : Leads (· = env) P (fun _ => P) (fun e s => P s ∧ ∃ err, e = .thrown err)
      (Updater.fileDelete path) := hP.fileDelete hop hdeleted fun err s hs _ => ⟨hs, err, rfl⟩
  refine hdelete.rescue (fun e => .pure fun s hs => hs.1) fun e s hno he => ?_
  obtain ⟨-, err, rfl⟩ := he
  exact absurd rfl (hno err)

theorem Steady.fileGetSize (hP : Steady env P) {path : String}
    (hfailed : ∀ err s, P s → (∃ n, env.refuses n (.size path) = true) ∨ s.disk path = none →
      E (.thrown err) s) :
    Leads (· = env) P (fun size s => P s ∧ ∃ file, s.disk path = some file ∧ size = file.length) E
      (fileGetSize path) := by
  refine .bind (hP.attempt rfl _ fun err s hs h => hfailed err s hs ?_) fun _ _ _ s hs => ?_
  · exact h.imp_right fun h => by simpa using h
  · obtain ⟨hs, hsome⟩ := hs
    obtain ⟨file, hfile⟩ := Option.isSome_iff_exists.1 hsome
    exact (wp_gets _).2 ⟨hs, file, hfile, by rw [hfile, Option.getD_some]⟩

theorem Steady.fail (hP : Steady env P) {α : Type} (text : String)
    (hclosed : ∀ s, P s → (∃ n, env.closes n = true) → E .closed s)
    (hexited : ∀ s, P s → E (.exited 1) s) :
    Leads (· = env) P (fun _ _ => False) E (fail text : Upd α) :=
  .bind (hP.msgBox text updaterTitle 16 hclosed) fun _ _ _ s hs => (wp_abort _).2 (hexited s hs)

end Rules

end WagonMove.Updater
