import Mathlib.Logic.Function.Basic
import WagonMove.Calm

/-!
# What the signal leaves behind

Each of the two attempts to write the signal works on one path and may fail in any of its three
file operations. `FileOps` says what an attempt does to its path, and two of them in a row decide
which results a reader can still find there when the script is gone.
-/

namespace WagonMove

open Prog

/-! ## One attempt -/

/-- There is a file, and not with a good content. -/
def Stale (good : String → Prop) (old : Option String) : Prop := ∃ c, old = some c ∧ ¬good c

namespace FileOps

variable (ops : FileOps) (content : String) (old : Option String)

def clears : Bool := ops.exist && ops.delete

def reaches : Bool := ops.exist && (old.isNone || ops.delete)

def writes : Bool := ops.reaches old && ops.append

def leaves : Option String :=
  if ops.reaches old then if ops.append then some content else none else old

variable {ops content old}

theorem leaves_of_writes (h : ops.writes old = true) : ops.leaves content old = some content := by
  obtain ⟨hreach, happend⟩ := (Bool.and_eq_true _ _).mp h
  rw [leaves, if_pos hreach, if_pos happend]

/-- An attempt leaves a stale file exactly if it finds one and does not clear it. -/
theorem stale_leaves_iff {good : String → Prop} (hgood : good content) :
    Stale good (ops.leaves content old) ↔ Stale good old ∧ ops.clears = false := by
  obtain ⟨exist, delete, append⟩ := ops
  cases old with
  | none => cases exist <;> cases append <;> simp [leaves, reaches, Stale, hgood]
  | some c =>
      cases exist <;> cases delete <;> cases append <;>
        simp [leaves, reaches, clears, Stale, hgood]

end FileOps

theorem files_setFile (path : String) (content : Option String) (s : St) :
    (s.setFile path content).files = Function.update s.files path content := by
  funext p
  rw [Function.update_apply]
  rfl

/-- What an attempt does with its path and the trace, and whether it has written. -/
structure Tried (ops : FileOps) (path content : String) (b : Bool) (s s' : St) : Prop where
  done : b = ops.writes (s.files path)
  files : s'.files = Function.update s.files path (ops.leaves content (s.files path))
  trace : ∃ l, s'.trace = l ++ s.trace ∧ ∀ a, .fileAppend a true ∈ l → b = true

theorem wp_fileAppend (a : Attempt) (path content : String) (r : Ctx) (s : St)
    (hs : s.files path = none) : wp (fileAppend a path content) (fun done s' =>
      done = (r.env.files a).append ∧
      s'.files = Function.update s.files path (if done then some content else none) ∧
      s'.trace = .fileAppend a done :: s.trace) (fun _ _ => False) r s := by
  rw [fileAppend, wp_bind, wp_constant, wp_bind, wp_log]
  apply wp_ite
  · intro happend
    rw [wp_bind, wp_gets, wp_bind, wp_update, wp_pure]
    refine ⟨happend.symm, ?_, by rw [happend]; rfl⟩
    rw [files_setFile, St.record_files, hs, if_pos rfl, Option.getD_none, String.empty_append]
  · intro happend
    have hfalse := Bool.eq_false_of_not_eq_true happend
    rw [wp_pure]
    refine ⟨hfalse.symm, ?_, by rw [hfalse]; rfl⟩
    rw [St.record_files, if_neg Bool.false_ne_true, ← hs, Function.update_eq_self]

theorem tried_fileAppend {a : Attempt} {path content : String} {r : Ctx} {s s₁ : St}
    {l : List Event} (hreach : (r.env.files a).reaches (s.files path) = true)
    (hfiles : s₁.files = Function.update s.files path none) (htrace : s₁.trace = l ++ s.trace)
    (hl : ∀ b, .fileAppend b true ∉ l) : wp (fileAppend a path content)
      (fun done => Tried (r.env.files a) path content done s) (fun _ _ => False) r s₁ := by
  have hnone : s₁.files path = none := by rw [hfiles, Function.update_self]
  apply wp_imp (wp_fileAppend a path content r s₁ hnone)
  rintro done s' ⟨hdone, hs', ht'⟩
  refine ⟨?_, ?_, .fileAppend a done :: l, by rw [ht', htrace, List.cons_append], fun b hb => ?_⟩
  · rw [FileOps.writes, hreach, hdone, Bool.true_and]
  · rw [hs', hfiles, Function.update_idem, FileOps.leaves, if_pos hreach, hdone]
  · obtain he | hb := List.mem_cons.1 hb
    · exact (Event.fileAppend.inj he).2.symm
    · exact absurd hb (hl b)

theorem tried_tryWrite (a : Attempt) (path content : String) (r : Ctx) (s : St) :
    wp (tryWrite a path content) (fun done => Tried (r.env.files a) path content done s)
      (fun _ _ => False) r s := by
  have hfailed {s' : St} {l : List Event} (hreach : (r.env.files a).reaches (s.files path) = false)
      (hfiles : s'.files = s.files) (htrace : s'.trace = l ++ s.trace)
      (hl : ∀ b, .fileAppend b true ∉ l) : Tried (r.env.files a) path content false s s' := by
    refine ⟨?_, ?_, l, htrace, fun b hb => absurd hb (hl b)⟩
    · rw [FileOps.writes, hreach, Bool.false_and]
    · rw [hfiles, FileOps.leaves, if_neg (by simp [hreach]), Function.update_eq_self]
  rw [tryWrite, wp_bind, wp_constant, wp_bind, wp_log]
  apply wp_ite
  · intro hexist
    rw [Bool.not_eq_true'] at hexist
    refine (wp_pure _).2 (hfailed (l := [.fileExist a]) ?_ rfl rfl (by simp))
    rw [FileOps.reaches, hexist, Bool.false_and]
  · intro hexist
    simp only [Bool.not_eq_true', Bool.not_eq_false] at hexist
    rw [wp_bind, wp_gets, St.record_files]
    apply wp_ite
    · intro hold
      have hreach : (r.env.files a).reaches (s.files path) = (r.env.files a).delete := by
        rw [FileOps.reaches, hexist, Bool.true_and, Option.isNone_eq_false_iff.2 hold,
          Bool.false_or]
      rw [wp_bind, wp_log]
      apply wp_ite
      · intro hdelete
        rw [Bool.not_eq_true'] at hdelete
        exact (wp_pure _).2 (hfailed (l := [.fileDelete a _, .fileExist a]) (hreach.trans hdelete)
          rfl rfl (by simp))
      · intro hdelete
        simp only [Bool.not_eq_true', Bool.not_eq_false] at hdelete
        rw [wp_bind, wp_update]
        exact tried_fileAppend (l := [.fileDelete a _, .fileExist a]) (hreach.trans hdelete)
          (files_setFile _ _ _) rfl (by simp)
    · intro hold
      have hnone : s.files path = none := Option.not_isSome_iff_eq_none.1 hold
      refine tried_fileAppend (l := [.fileExist a]) ?_ ?_ rfl (by simp)
      · rw [FileOps.reaches, hexist, hnone, Option.isNone_none, Bool.true_or, Bool.true_and]
      · rw [← hnone, Function.update_eq_self, St.record_files]

theorem Tried.stale_iff {ops : FileOps} {path content : String} {b : Bool} {s s' : St}
    (h : Tried ops path content b s s') {good : String → Prop} (hgood : good content) (p : String) :
    Stale good (s'.files p) ↔ Stale good (s.files p) ∧ (path = p → ops.clears = false) := by
  rw [h.files]
  by_cases hp : path = p
  · subst hp
    rw [Function.update_self, FileOps.stale_leaves_iff hgood, forall_prop_of_true rfl]
  · rw [Function.update_of_ne (Ne.symm hp)]
    exact (and_iff_left fun he => absurd he hp).symm

theorem Tried.isSome {ops : FileOps} {path content : String} {s s' : St}
    (h : Tried ops path content true s s') : (s'.files path).isSome := by
  rw [h.files, Function.update_self, FileOps.leaves_of_writes h.done.symm, Option.isSome_some]

/-! ## Both attempts -/

/-- The two paths at which a signal can be found. -/
def signalLocation (f : ScriptFile) (r : Ctx) (s : St) : Attempt → String
  | .main => s.signalFile
  | .fallback => r.env.temp ++ doneFile f

def attempted (r : Ctx) (s : St) : Attempt → Bool
  | .main => true
  | .fallback => !(r.env.files .main).writes (s.files s.signalFile)

/-- A file with a result of this status and detail. -/
def Holds (status : Status) (detail content : String) : Prop :=
  ∃ tick, content = signalContent status detail tick

theorem Holds.status_eq {status status' : Status} {detail detail' content : String}
    (h : Holds status detail content) (h' : Holds status' detail' content) : status = status' := by
  obtain ⟨tick, rfl⟩ := h
  obtain ⟨tick', h'⟩ := h'
  have hchars := congrArg String.toList h'
  rw [toList_signalContent, toList_signalContent, List.append_cancel_left_eq] at hchars
  cases status with
  | ok =>
      cases status' with
      | ok => rfl
      | error => exact absurd (congrArg List.head? hchars) (by simp [Status.text])
  | error =>
      cases status' with
      | ok => exact absurd (congrArg List.head? hchars) (by simp [Status.text])
      | error => rfl

/-- What a call leaves at every path, and what its `FileAppend`s are worth. -/
structure Published (f : ScriptFile) (status : Status) (detail : String) (r : Ctx) (s s' : St) :
    Prop where
  stale : ∀ p, Stale (Holds status detail) (s'.files p) ↔ Stale (Holds status detail) (s.files p) ∧
    ∀ a, attempted r s a = true → signalLocation f r s a = p → (r.env.files a).clears = false
  appended : ∃ l, s'.trace = l ++ s.trace ∧
    ((∃ a, .fileAppend a true ∈ l) → ∃ a, (s'.files (signalLocation f r s a)).isSome)

theorem Attempt.forall_iff {P : Attempt → Prop} : (∀ a, P a) ↔ P .main ∧ P .fallback :=
  ⟨fun h => ⟨h _, h _⟩, fun h a => by cases a; exacts [h.1, h.2]⟩

namespace Published

variable {f : ScriptFile} {status : Status} {detail content : String} {r : Ctx} {s s₁ s₂ s' : St}
  {u v : List Event}

theorem of_main (hgood : Holds status detail content) (hfiles : s₁.files = s.files)
    (htrace : s₁.trace = u ++ s.trace)
    (h : Tried (r.env.files .main) s.signalFile content true s₁ s₂) (hfiles' : s'.files = s₂.files)
    (htrace' : s'.trace = v ++ s₂.trace) : Published f status detail r s s' where
  stale p := by
    have hdone : (r.env.files .main).writes (s.files s.signalFile) = true := hfiles ▸ h.done.symm
    rw [hfiles', h.stale_iff hgood, hfiles, Attempt.forall_iff]
    simp [attempted, signalLocation, hdone]
  appended := by
    obtain ⟨l, hl, -⟩ := h.trace
    refine ⟨v ++ (l ++ u), by simp [htrace', hl, htrace], fun _ => ⟨.main, ?_⟩⟩
    rw [hfiles']
    exact h.isSome

theorem of_fallback (hgood : Holds status detail content) (hfiles : s₁.files = s.files)
    (htrace : s₁.trace = u ++ s.trace) (hu : ∀ b, .fileAppend b true ∉ u) {s₃ : St} {b : Bool}
    (h : Tried (r.env.files .main) s.signalFile content false s₁ s₂)
    (h₂ : Tried (r.env.files .fallback) (r.env.temp ++ doneFile f) content b s₂ s₃)
    (hfiles' : s'.files = s₃.files) (htrace' : s'.trace = v ++ s₃.trace)
    (hv : ∀ b, .fileAppend b true ∉ v) : Published f status detail r s s' where
  stale p := by
    have hdone : (r.env.files .main).writes (s.files s.signalFile) = false := hfiles ▸ h.done.symm
    rw [hfiles', h₂.stale_iff hgood, h.stale_iff hgood, hfiles, Attempt.forall_iff]
    simp [attempted, signalLocation, hdone, and_assoc]
  appended := by
    obtain ⟨l, hl, hla⟩ := h.trace
    obtain ⟨l₂, hl₂, hla₂⟩ := h₂.trace
    refine ⟨v ++ (l₂ ++ (l ++ u)), by simp [htrace', hl₂, hl, htrace], ?_⟩
    rintro ⟨a, ha⟩
    have hb : b = true := by
      simp only [List.mem_append, hv, hu, false_or, or_false] at ha
      exact ha.elim (hla₂ a) fun h => nomatch hla a h
    subst hb
    exact ⟨.fallback, by rw [hfiles']; exact h₂.isSome⟩

end Published

theorem published_writeSignalAndExit {α : Type} (f : ScriptFile) (status : Status) (detail : String)
    (r : Ctx) (s : St) : wp (writeSignalAndExit f status detail : Ahk α) (fun _ _ => False)
      (fun _ s' => Published f status detail r s s') r s := by
  have hsilent {β : Type} {x : Ahk β} {Q : β → St → Prop} {E : Abort Err → St → Prop} {s₀ : St}
      (hx : Does (Quiet fun _ => False) x) (h : ∀ b s₁, s₁.files = s₀.files →
        s₁.signalFile = s₀.signalFile → s₁.trace = s₀.trace → Q b s₁) : wp x Q E r s₀ := by
    refine hx.wp fun b s₁ hq => ?_
    obtain ⟨l, hl, hno⟩ := hq.trace
    obtain rfl : l = [] := List.eq_nil_iff_forall_not_mem.2 hno
    exact h b s₁ hq.files hq.signalFile hl
  rw [writeSignalAndExit, wp_bind, wp_log, wp_bind]
  refine hsilent quiet_hideSpecialMarker fun _ s₁ hf₁ hp₁ ht₁ => ?_
  rw [wp_bind]
  refine hsilent quiet_hideStatusOverlay fun _ s₂ hf₂ hp₂ ht₂ => ?_
  rw [wp_bind]
  refine hsilent quiet_tickCount fun tick s₃ hf₃ hp₃ ht₃ => ?_
  have hfiles : s₃.files = s.files := hf₃.trans (hf₂.trans hf₁)
  have hpath : s₃.signalFile = s.signalFile := hp₃.trans (hp₂.trans hp₁)
  have htrace : s₃.trace = [.signal status detail] ++ s.trace := ht₃.trans (ht₂.trans ht₁)
  have hgood : Holds status detail (signalContent status detail tick) := ⟨tick, rfl⟩
  rw [wp_bind, wp_gets, wp_bind, wp_constant, wp_bind, hpath]
  refine wp_mono (tried_tryWrite .main _ _ r s₃) (fun done s₄ h₄ => ?_) fun _ _ hf => hf.elim
  rw [wp_bind]
  cases done with
  | true =>
      rw [if_pos rfl, wp_pure, wp_exitApp]
      exact .of_main (v := [_, _]) hgood hfiles htrace h₄ rfl rfl
  | false =>
      rw [if_neg Bool.false_ne_true]
      refine wp_mono (tried_tryWrite .fallback _ _ r s₄) (fun b s₅ h₅ => ?_) fun _ _ hf => hf.elim
      rw [wp_exitApp]
      exact .of_fallback (v := [_, _]) hgood hfiles htrace (by simp) h₄ h₅ rfl rfl (by simp)

/-- After a call every file at the two locations holds this result, and there is one if an append
has succeeded, exactly if each other result found there is cleared by an attempt that is made. -/
theorem no_stale_result_iff {α : Type} (f : ScriptFile) (status : Status) (detail : String)
    (r : Ctx) (s : St) :
    ((∀ a c, ((writeSignalAndExit f status detail : Ahk α).run r s).2.files
        (signalLocation f r s a) = some c → Holds status detail c) ∧
      (∃ l, ((writeSignalAndExit f status detail : Ahk α).run r s).2.trace = l ++ s.trace ∧
        ((∃ a, .fileAppend a true ∈ l) → ∃ a, (((writeSignalAndExit f status detail : Ahk α).run
          r s).2.files (signalLocation f r s a)).isSome)) ∧
      (status = .error → ∀ c, ((writeSignalAndExit f status detail : Ahk α).run r s).2.files
        s.signalFile = some c → ∀ d, ¬Holds .ok d c)) ↔
    ∀ a c, s.files (signalLocation f r s a) = some c → ¬Holds status detail c →
      ∃ b, attempted r s b = true ∧ signalLocation f r s b = signalLocation f r s a ∧
        (r.env.files b).clears = true := by
  have hpub : Published f status detail r s
      ((writeSignalAndExit f status detail : Ahk α).run r s).2 := by
    obtain ⟨e, s', hrun, hpub⟩ := exists_end (published_writeSignalAndExit f status detail r s)
    rwa [hrun]
  generalize ((writeSignalAndExit f status detail : Ahk α).run r s).2 = s' at hpub ⊢
  constructor
  · rintro ⟨hfresh, -⟩ a c hc hbad
    by_contra! hno
    obtain ⟨c', hc', hbad'⟩ := (hpub.stale _).2 ⟨⟨c, hc, hbad⟩, fun b hb hloc =>
      Bool.eq_false_of_not_eq_true (hno b hb hloc)⟩
    exact hbad' (hfresh a c' hc')
  · intro hcleared
    have hfresh (a : Attempt) (c : String) (hc : s'.files (signalLocation f r s a) = some c) :
        Holds status detail c := by
      by_contra hbad
      obtain ⟨⟨c₀, hc₀, hbad₀⟩, hkept⟩ := (hpub.stale _).1 ⟨c, hc, hbad⟩
      obtain ⟨b, hb, hloc, hclears⟩ := hcleared a c₀ hc₀ hbad₀
      exact Bool.false_ne_true ((hkept b hb hloc).symm.trans hclears)
    refine ⟨hfresh, hpub.appended, ?_⟩
    rintro rfl c hc d hok
    exact nomatch (hfresh .main c hc).status_eq hok

def staleFallback : St :=
  { signalFile := "C:\\scripts\\wagon_done.ini"
    files := fun p =>
      if p = "C:\\temp\\wagon_done.ini" then some (signalContent .ok "movement_complete" 7)
      else none }

/-- The fallback still says `ok` after an error has been written to the main location without a
fault. -/
theorem stale_fallback_survives :
    ∃ c, ((writeSignalAndExit .wagonMove .error "movement_failed" : Ahk Unit).run
      { env := Env.idle } staleFallback).2.files
        (signalLocation .wagonMove { env := Env.idle } staleFallback .fallback) = some c ∧
      Holds .ok "movement_complete" c ∧ ¬Holds .error "movement_failed" c := by
  refine ⟨signalContent .ok "movement_complete" 7, ?_, ⟨7, rfl⟩, fun h => ?_⟩
  · decide +kernel
  · exact nomatch h.status_eq ⟨7, rfl⟩

end WagonMove
