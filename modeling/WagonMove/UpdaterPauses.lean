import WagonMove.Budget
import WagonMove.UpdaterStages

/-!
# Pauses and messages of the updater

The events of a run are weighed: once a `Sleep` weighs what it lasts, once a message box weighs one.
In the first measure the costs of all steps add up, in the second nearly all steps are free.
-/

namespace WagonMove.Updater

open Prog

def weigh (w : Event → ℕ) (s : St) : ℕ := (s.trace.map w).sum

/-- The events of `x` weigh at most `b`. -/
abbrev Weighs (w : Event → ℕ) (b : ℕ) {α : Type} (x : Upd α) : Prop :=
  Costs (fun _ => True) (weigh w) b x

/-- Only pauses and messages have a weight. -/
structure Light (w : Event → ℕ) : Prop where
  failed : ∀ op, w (.failed op) = 0
  ran : ∀ path program, w (.ran path program) = 0

/-! ## The built-ins -/

section Weighs

variable {w : Event → ℕ} {α : Type}

theorem weigh_record (e : Event) (s : St) : weigh w (s.record e) = w e + weigh w s := by
  rw [weigh, St.record, List.map_cons, List.sum_cons]
  rfl

theorem weighs_log (e : Event) : Weighs w (w e) (log e) := .update fun s => by
  rw [weigh_record]
  omega

theorem weighs_free {e : Event} (he : w e = 0) : Weighs w 0 (log e) :=
  (weighs_log e).mono he.le

theorem weighs_ask (q : Env → ℕ → α) : Weighs w 0 (ask q) := fun _ _ _ => (wp_ask q).2 le_rfl

theorem weighs_constant (q : Env → α) : Weighs w 0 (constant q) := fun _ _ _ =>
  (wp_constant q).2 le_rfl

theorem weighs_change (f : Disk → Disk) : Weighs w 0 (update fun s => s.change (f s.disk)) :=
  .update fun _ => le_rfl

theorem weighs_wait : Weighs w 0 wait := .after (weighs_ask _) fun _ => .ite (.abort _) (.pure _)

theorem weighs_sleep (ms : ℕ) : Weighs w (w (.slept ms)) (sleep ms) :=
  (weighs_log _).before fun _ => weighs_wait

theorem weighs_msgBox (text title : String) (options : ℕ) :
    Weighs w (w (.msgBox text title options)) (msgBox text title options) :=
  (weighs_log _).before fun _ => weighs_wait

theorem weighs_processExist (name : String) : Weighs w 0 (processExist name) := weighs_ask _

theorem weighs_fileExist (path : String) : Weighs w 0 (fileExist path) := .gets _

variable (hw : Light w)
include hw

theorem weighs_attempt (op : Op) (possible : Disk → Bool) : Weighs w 0 (attempt op possible) :=
  .after (weighs_ask _) fun _ => .after (weighs_ask _) fun _ => .after (.gets _) fun _ =>
    .ite (.after (weighs_free (hw.failed op)) fun _ => .abort _) (.pure _)

theorem weighs_fileDelete (path : String) : Weighs w 0 (fileDelete path) :=
  .after (weighs_attempt hw _ _) fun _ => weighs_change fun d => Function.update d path none

theorem weighs_fileMove (source dest : String) : Weighs w 0 (fileMove source dest) :=
  .after (weighs_attempt hw _ _) fun _ =>
    weighs_change fun d => Function.update (Function.update d dest (d source)) source none

theorem weighs_fileGetSize (path : String) : Weighs w 0 (fileGetSize path) :=
  .after (weighs_attempt hw _ _) fun _ => .gets _

theorem weighs_tryFileDelete (path : String) : Weighs w 0 (tryFileDelete path) :=
  .rescue (b := 0) (weighs_fileDelete hw path) fun _ => .pure _

theorem weighs_deleteIfExists (path : String) : Weighs w 0 (deleteIfExists path) :=
  .after (weighs_fileExist path) fun _ => .ite (weighs_fileDelete hw path) (.pure _)

theorem weighs_download (url dest : String) : Weighs w 0 (downloadViaPowerShell url dest) := by
  have hwrite (ws : List (String × Option File)) : Weighs w 0 (write ws) := by
    induction ws with
    | nil => exact .pure _
    | cons w' ws ih =>
        exact .after (weighs_change fun d => Function.update d w'.1 w'.2) fun _ => ih
  exact .after (weighs_attempt hw _ _) fun _ => .after (weighs_ask _) fun _ =>
    .after (hwrite _) fun _ => weighs_wait

theorem weighs_run (path : String) : Weighs w 0 (run path) :=
  .after (weighs_attempt hw _ _) fun _ => .after (.gets _) fun _ => weighs_free (hw.ran _ _)

/-! ## The steps -/

theorem weighs_fetch (exeTmp : String) : Weighs w 0 (do
    deleteIfExists exeTmp
    downloadViaPowerShell exeUrl exeTmp) :=
  .after (weighs_deleteIfExists hw exeTmp) fun _ => weighs_download hw _ _

omit hw in
theorem weighs_waitForExit : Weighs w (60 * w (.slept 500) + 0) waitForExit := by
  refine .loop (fun _ => .after (weighs_processExist _) fun _ => .ite (.pure _) ?_)
    (fun _ => .pure _) _ _
  exact (weighs_sleep 500).before fun _ => .pure _

theorem weighs_replaceExe (exeTmp exeDest : String) :
    Weighs w (20 * (0 + w (.slept 500)) + 0) (replaceExe exeTmp exeDest) := by
  have hreplace : Weighs w 0 (do
      deleteIfExists exeDest
      fileMove exeTmp exeDest
      pure (.leave ⟨true, ""⟩ : Turn Replaced String)) :=
    .after (weighs_deleteIfExists hw exeDest) fun _ => .after (weighs_fileMove hw exeTmp exeDest)
      fun _ => .pure _
  exact .loop (fun _ => .rescue hreplace fun _ => (weighs_sleep 500).before fun _ => .pure _)
    (fun _ => .pure _) _ _

theorem weighs_updateAhk (ahkTmp ahkDest : String) : Weighs w 0 (updateAhk ahkTmp ahkDest) := by
  have hwhole : Weighs w 0 (do
      if ← fileExist ahkTmp then
        let size ← fileGetSize ahkTmp
        pure (decide (0 < size))
      else pure false) :=
    .after (weighs_fileExist ahkTmp) fun _ => .ite
      (.after (weighs_fileGetSize hw ahkTmp) fun _ => .pure _) (.pure _)
  refine .rescue (b := 0) (.after (weighs_deleteIfExists hw ahkTmp) fun _ =>
    .after (weighs_download hw ahkUrl ahkTmp) fun _ => .after hwhole fun whole => ?_)
      fun _ => .pure _
  refine .ite ?_ ?_
  · exact .after (weighs_deleteIfExists hw ahkDest) fun _ => weighs_fileMove hw ahkTmp ahkDest
  · exact weighs_tryFileDelete hw ahkTmp

end Weighs

/-! ## Pauses -/

def Event.pause : Event → ℕ
  | .slept ms => ms
  | _ => 0

theorem light_pause : Light Event.pause := ⟨fun _ => rfl, fun _ _ => rfl⟩

theorem weighs_fail {w : Event → ℕ} (hw : ∀ text title options, w (.msgBox text title options) = 0)
    {α : Type} (text : String) : Weighs w 0 (fail text : Upd α) :=
  .after ((weighs_msgBox _ _ _).mono (hw _ _ _).le) fun _ => .abort _

theorem pauses_updater : Weighs Event.pause 41500 updater := by
  have hbox (text : String) (options : ℕ) :
      Weighs Event.pause 0 (msgBox text updaterTitle options) := weighs_msgBox _ _ _
  have hfail {α : Type} (text : String) : Weighs Event.pause 0 (fail text : Upd α) :=
    weighs_fail (fun _ _ _ => rfl) text
  have hdownload (exeTmp : String) : Weighs Event.pause 0 (downloadExe exeTmp) :=
    .rescue (b := 0) (weighs_fetch light_pause exeTmp) fun _ => hfail _
  have hvalidate (exeTmp : String) : Weighs Event.pause 0 (validate exeTmp) :=
    .after (weighs_fileExist exeTmp) fun _ => .ite (hfail _) <|
      .after (weighs_fileGetSize light_pause exeTmp) fun _ => .ite
        (.after (weighs_tryFileDelete light_pause exeTmp) fun _ => hfail _) (.pure _)
  have hupdate (exeTmp exeDest : String) :
      Weighs Event.pause (20 * 500) (updateExe exeTmp exeDest) :=
    .after (hdownload exeTmp) fun _ => .after (hvalidate exeTmp) fun _ =>
      (weighs_replaceExe light_pause exeTmp exeDest).before fun r => .ite (hfail _) (.pure _)
  have hrelaunch (exeDest : String) : Weighs Event.pause 0 (relaunch exeDest) :=
    .rescue (b := 0) (weighs_run light_pause exeDest) fun _ => hbox _ _
  exact (weighs_waitForExit.bind fun _ => (weighs_sleep 1500).bind fun _ =>
    .after (weighs_constant _) fun _ => .after (weighs_constant _) fun _ =>
      (hupdate _ _).before fun _ => .after (weighs_constant _) fun _ =>
        .after (weighs_constant _) fun _ => .after (weighs_updateAhk light_pause _ _) fun _ =>
          .after (weighs_constant _) fun _ => .after (hrelaunch _) fun _ => .abort _).mono
            (by decide)

/-! ## Messages -/

def Event.message : Event → ℕ
  | .msgBox _ _ _ => 1
  | _ => 0

theorem light_message : Light Event.message := ⟨fun _ => rfl, fun _ _ => rfl⟩

/-- No message has been shown so far. -/
def Silent (s : St) : Prop := weigh Event.message s = 0

/-- A message has been shown, if any, and nothing has happened since. -/
def LastWord (s : St) : Prop := Silent s ∨ ∃ text options s',
  s.trace = .msgBox text updaterTitle options :: s'.trace ∧ Silent s'

section Messages

variable {α : Type}

theorem silently {x : Upd α} (hx : Weighs Event.message 0 x) {E : Abort Err → St → Prop}
    (hE : ∀ e s, Silent s → E e s) :
    Leads (fun _ => True) Silent (fun _ => Silent) E x := by
  intro env _ s hs
  have hzero (s' : St) (h : weigh Event.message s' ≤ weigh Event.message s + 0) : Silent s' := by
    unfold Silent at hs ⊢
    omega
  exact wp_mono (hx env trivial s) (fun _ s' h => hzero s' h) fun e s' h => hE e s' (hzero s' h)

theorem leads_msgBox (text : String) (options : ℕ) : Leads (fun _ => True) Silent
    (fun _ => LastWord) (fun _ => LastWord) (msgBox text updaterTitle options) := by
  intro env _ s hs
  have hlast (n : ℕ) : LastWord
      { s with asked := n, trace := .msgBox text updaterTitle options :: s.trace } :=
    .inr ⟨text, options, s, rfl, hs⟩
  rw [msgBox, wp_bind, wp_log, wait, wp_bind, wp_ask]
  exact wp_ite (fun _ => (wp_abort _).2 (hlast _)) fun _ => (wp_pure _).2 (hlast _)

theorem leads_fail (text : String) : Leads (fun _ => True) Silent (fun _ => Silent)
    (fun _ => LastWord) (fail text : Upd α) :=
  (leads_msgBox text 16).bind fun _ _ _ _ hs => (wp_abort _).2 hs

theorem leads_updater : Leads (fun _ => True) Silent (fun _ => LastWord) (fun _ => LastWord)
    updater := by
  have hquiet {β : Type} {x : Upd β} (hx : Weighs Event.message 0 x) :
      Leads (fun _ => True) Silent (fun _ => Silent) (fun _ => LastWord) x :=
    silently hx fun _ _ hs => .inl hs
  have hraised {β : Type} {x : Upd β} (hx : Weighs Event.message 0 x) :
      Leads (fun _ => True) Silent (fun _ => Silent) (fun _ => Silent) x :=
    silently hx fun _ _ hs => hs
  have hdownload (exeTmp : String) :
      Leads (fun _ => True) Silent (fun _ => Silent) (fun _ => LastWord) (downloadExe exeTmp) :=
    (hraised (weighs_fetch light_message exeTmp)).rescue (fun _ => leads_fail _)
      fun _ _ _ hs => .inl hs
  have hvalidate (exeTmp : String) :
      Leads (fun _ => True) Silent (fun _ => Silent) (fun _ => LastWord) (validate exeTmp) := by
    refine (hquiet (weighs_fileExist exeTmp)).bind fun _ => .ite (fun _ => leads_fail _) fun _ => ?_
    refine (hquiet (weighs_fileGetSize light_message exeTmp)).bind fun _ => .ite (fun _ => ?_)
      fun _ => .pure fun _ hs => hs
    exact (hquiet (weighs_tryFileDelete light_message exeTmp)).bind fun _ => leads_fail _
  have hupdate (exeTmp exeDest : String) :
      Leads (fun _ => True) Silent (fun _ => Silent) (fun _ => LastWord)
        (updateExe exeTmp exeDest) :=
    (hdownload exeTmp).bind fun _ => (hvalidate exeTmp).bind fun _ =>
      (hquiet (weighs_replaceExe light_message exeTmp exeDest)).bind fun r =>
        .ite (fun _ => leads_fail _) fun _ => .pure fun _ hs => hs
  have hrelaunch (exeDest : String) :
      Leads (fun _ => True) Silent (fun _ => LastWord) (fun _ => LastWord) (relaunch exeDest) := by
    have hrun := (hraised (weighs_run light_message exeDest)).mono (fun _ hs => hs)
      fun _ _ (hs : Silent _) => (.inl hs : LastWord _)
    exact hrun.rescue (fun _ => leads_msgBox _ _) fun _ _ _ hs => .inl hs
  refine (hquiet weighs_waitForExit).bind fun _ => (hquiet (weighs_sleep 1500)).bind fun _ => ?_
  refine (hquiet (weighs_constant _)).bind fun _ => (hquiet (weighs_constant _)).bind fun _ => ?_
  refine (hupdate _ _).bind fun _ => (hquiet (weighs_constant _)).bind fun _ => ?_
  refine (hquiet (weighs_constant _)).bind fun _ =>
    (hquiet (weighs_updateAhk light_message _ _)).bind fun _ => ?_
  exact (hquiet (weighs_constant _)).bind fun _ => (hrelaunch _).bind fun _ _ _ _ hs =>
    (wp_abort _).2 hs

end Messages

/-- An update keeps the user waiting for 41.5 s at most, apart from the downloads, and disturbs the
user with one message at most, which is the last thing it does. -/
theorem update_disturbs_once (env : Env) (old : Disk) :
    ((runUpdater env old).2.trace.map Event.pause).sum ≤ 41500 ∧
      LastWord (runUpdater env old).2 := by
  have hpauses := pauses_updater.run_le (r := env) trivial { disk := old }
  have hnone : weigh Event.pause { disk := old } = 0 := rfl
  rw [hnone, Nat.zero_add] at hpauses
  exact ⟨hpauses, of_every_end (leads_updater env trivial { disk := old } rfl)⟩

end WagonMove.Updater
