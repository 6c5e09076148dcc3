import WagonMove.UpdaterStages

/-!
# The steps of an update

From stage to stage: the download, its validation, the attempts to replace the program, of which
each may find it still locked, the second download and the start of the new program.
-/

namespace WagonMove.Updater

open Prog

/-! ## Fetching the program -/

section Fetch

variable {env : Env} {old : Disk}

theorem Midway.update {content : Option File} {d : Disk} (h : Midway env old none d)
    {path : String} (hmem : path ∈ env.files) (hdest : path ≠ env.exeDest) :
    Midway env old none (Function.update d path content) := by
  generalize hd : Function.update d path content = d'
  have hprogram : d' env.exeDest = old env.exeDest := by
    rw [← hd, Function.update_of_ne hdest.symm]
    exact h.startable.resolve_right fun hnew => hnew.1 rfl
  refine ⟨fun other hother => ?_, .inl hprogram, .inl hprogram⟩
  have hne : other ≠ path := fun heq => hother (heq ▸ hmem)
  rw [← hd, Function.update_of_ne hne, h.others other hother]

theorem Fetching.change {s : St} (h : Fetching env old s) {path : String} {content : Option File}
    (hmem : path ∈ env.files) (hdest : path ≠ env.exeDest) :
    Fetching env old (s.change (Function.update s.disk path content)) :=
  Held.change h ((h.moments s.disk List.mem_cons_self).update hmem hdest)

theorem Fetching.closed {s : St} (h : Fetching env old s) (hclosed : ∃ n, env.closes n = true) :
    Ends env old .closed s := .inl ⟨h, fun _ => hclosed, fun hne => absurd rfl hne⟩

theorem Fetching.exited {s : St} (h : Fetching env old s) (hhindered : Hindered env) :
    Ends env old (.exited 1) s := .inl ⟨h, by simp, fun _ => ⟨hhindered, .inl rfl⟩⟩

theorem Fetching.thrown {s : St} (h : Fetching env old s) (hhindered : Hindered env) (err : Err) :
    Ends env old (.thrown err) s := .inl ⟨h, by simp, fun _ => ⟨hhindered, .inr ⟨err, rfl⟩⟩⟩

theorem leads_waitForExit : Leads (· = env) (Fetching env old) (fun _ => Fetching env old)
    (Ends env old) waitForExit := by
  have hasked (name : String) : Leads (· = env) (Fetching env old) (fun _ => Fetching env old)
      (Ends env old) (processExist name) := fun _ _ s hs =>
    (wp_ask _).2 (Fetching.steady.asked s _ (Nat.le_succ _) hs)
  refine Leads.loop (Q := fun _ => Fetching env old) (fun _ => ?_)
    (fun _ => .pure fun _ hs => hs) _ _
  refine .bind (hasked _) fun _ => .ite (fun _ => .pure fun _ hs => hs) fun _ => ?_
  exact .bind (Fetching.steady.sleep 500 fun s => Fetching.closed) fun _ => .pure fun _ hs => hs

/-- The download has returned. -/
def Fetched (env : Env) (old : Disk) (s : St) : Prop := Fetching env old s ∧
  (GoodDownloads env → ∃ file, s.disk env.exeTmp = some file ∧ minExeBytes ≤ file.length)

theorem Fetched.steady : Steady env (Fetched env old) where
  asked s n hn h := ⟨Fetching.steady.asked s n hn h.1, h.2⟩
  aside s e he h := ⟨Fetching.steady.aside s e he h.1, h.2⟩

theorem exeTmp_mem_files (env : Env) : env.exeTmp ∈ env.files := by simp [Env.files]

theorem replaces_delete_of_ne {path : String} (h : path ≠ env.exeDest) :
    env.replaces (.delete path) = false := by simp [Env.replaces, h]

/-- What a download leaves in its file, if it writes it at all. -/
def Downloaded (env : Env) (command dest : String) (s : St) : Prop :=
  ∃ n, ∀ init content, env.writes n command = init ++ [(dest, content)] → s.disk dest = content

/-- A command of which it is known what it is read as. -/
theorem leads_runWait {P : St → Prop} {E : Abort Err → St → Prop} {command url dest : String}
    (hP : Steady env P) (hshell : Shell env) (hargs : downloadArgs command = some (url, dest))
    (hchange : ∀ s content, P s → P (s.change (Function.update s.disk dest content)))
    (hfailed : ∀ err s, P s → (∃ n, env.refuses n (.command command) = true) → E (.thrown err) s)
    (hclosed : ∀ s, P s → (∃ n, env.closes n = true) → E .closed s) :
    Leads (· = env) P (fun _ s => P s ∧ Downloaded env command dest s) E (runWait command) := by
  let Wrote (s : St) : Prop := P s ∧ Downloaded env command dest s
  have hwrote : Steady env Wrote :=
    ⟨fun s n hn h => ⟨hP.asked s n hn h.1, h.2⟩, fun s e he h => ⟨hP.aside s e he h.1, h.2⟩⟩
  have hrefused : Leads (· = env) P (fun _ s => P s ∧ true = true) E
      (attempt (.command command) fun _ => true) :=
    hP.attempt rfl _ fun err s hs h => hfailed err s hs (h.resolve_right (by simp))
  have hask : Leads (· = env) P (fun ws s => P s ∧ ∃ n, ws = env.writes n command) E
      (ask fun env n => env.writes n command) := by
    rintro _ rfl s hs
    exact (wp_ask _).2 ⟨hP.asked s _ (Nat.le_succ _) hs, _, rfl⟩
  have hwrite (ws : List (String × Option File)) :
      Leads (· = env) (fun s => P s ∧ ∃ n, ws = env.writes n command) (fun _ => Wrote) E
        (write ws) := by
    rintro _ rfl s ⟨hs, n, rfl⟩
    refine wp_imp (wp_write hchange (hshell n command url dest hargs) hs) fun _ s' h => ?_
    refine ⟨h.1, n, fun init content heq => h.2.trans ?_⟩
    rw [heq, List.getLast?_concat]
    rfl
  exact .bind (hrefused.mono (fun _ hs => hs) fun _ _ h => h.1) fun _ => .bind hask fun ws =>
    .bind (hwrite ws) fun _ => hwrote.wait fun s hs => hclosed s hs.1

theorem leads_downloadExe (hshell : Shell env) (hdir : Readable env.exeDir.toList) :
    Leads (· = env) (Fetching env old) (fun _ => Fetched env old) (Ends env old)
      (downloadExe env.exeTmp) := by
  have hchange (s : St) (content : Option File) (hs : Fetching env old s) :
      Fetching env old (s.change (Function.update s.disk env.exeTmp content)) :=
    hs.change (exeTmp_mem_files env) (exeTmp_ne_exeDest env)
  let Failed (e : Abort Err) (s : St) : Prop := Fetching env old s ∧
    (e = .closed ∧ (∃ n, env.closes n = true) ∨ (∃ err, e = .thrown err) ∧ Hindered env)
  have hfailed {op : Op} (hop : env.fetches op = true) (err : Err) (s : St)
      (hs : Fetching env old s) (h : ∃ n, env.refuses n op = true) : Failed (.thrown err) s := by
    obtain ⟨n, hn⟩ := h
    exact ⟨hs, .inr ⟨⟨err, rfl⟩, .inl ⟨n, op, hop, hn⟩⟩⟩
  have hdelete : Leads (· = env) (Fetching env old) (fun _ => Fetching env old) Failed
      (deleteIfExists env.exeTmp) :=
    Fetching.steady.deleteIfExists (replaces_delete_of_ne (exeTmp_ne_exeDest env))
      (fun s hs _ => hs) (fun s hs => hchange s none hs) (hfailed (by simp [Env.fetches]))
  have hrun : Leads (· = env) (Fetching env old) (fun _ s => Fetching env old s ∧
      Downloaded env (downloadCommand exeUrl env.exeTmp) env.exeTmp s) Failed
      (downloadViaPowerShell exeUrl env.exeTmp) :=
    leads_runWait Fetching.steady hshell ((downloadArgs_exe_iff env).2 hdir) hchange
      (hfailed (by simp [Env.fetches])) fun s hs h => ⟨hs, .inl ⟨rfl, h⟩⟩
  have hfetched : Leads (· = env) (Fetching env old) (fun _ => Fetched env old) Failed (do
      deleteIfExists env.exeTmp
      downloadViaPowerShell exeUrl env.exeTmp) := by
    refine (hdelete.bind fun _ => hrun).mono (fun _ hs => hs) fun _ s hs => ⟨hs.1, fun hgood => ?_⟩
    obtain ⟨n, hlast⟩ := hs.2
    obtain ⟨init, file, hwrites, hsize⟩ := hgood n
    exact ⟨file, hlast init _ hwrites, hsize⟩
  refine hfetched.rescue (fun e => ?_) fun e s hno he => ?_
  · intro r hr s hs
    have hhindered : Hindered env := by
      obtain ⟨-, ⟨hclosed, -⟩ | ⟨-, h⟩⟩ := hs
      · cases hclosed
      · exact h
    exact wp_mono (Fetching.steady.fail _ (fun s => Fetching.closed)
      (fun s hs => hs.exited hhindered) r hr s hs.1) (fun _ _ hf => hf.elim) fun _ _ he => he
  · obtain ⟨hs, ⟨rfl, hclosed⟩ | ⟨⟨err, rfl⟩, -⟩⟩ := he
    · exact hs.closed hclosed
    · exact absurd rfl (hno err)

theorem Midway.of_fetching {d : Disk} (h : Midway env old none d) (new : File) :
    Midway env old (some new) d := by
  have hprogram := h.startable.resolve_right fun hnew => hnew.1 rfl
  exact ⟨h.others, .inl hprogram, .inl hprogram⟩

theorem Fetching.ready {s : St} (h : Fetching env old s) {new : File}
    (hnew : s.disk env.exeTmp = some new) (hsize : minExeBytes ≤ new.length) :
    Ready env old new 0 s :=
  have hprogram := (h.moments s.disk List.mem_cons_self).startable.resolve_right fun h => h.1 rfl
  ⟨hsize, ⟨fun d hd => (h.moments d hd).of_fetching new, h.launched, h.failed, h.refused⟩, hnew,
    .inl hprogram⟩

theorem leads_validate : Leads (· = env) (Fetched env old) (fun _ s => ∃ new, Ready env old new 0 s)
    (Ends env old) (validate env.exeTmp) := by
  have hfail (text : String) (hhindered : Hindered env) : Leads (· = env) (Fetching env old)
      (fun _ s => ∃ new, Ready env old new 0 s) (Ends env old) (fail text : Upd Unit) :=
    (Fetching.steady.fail text (fun s => Fetching.closed) fun s hs => hs.exited hhindered).mono
      (fun _ hs => hs) fun _ _ hf => hf.elim
  rintro r hr s hs
  rw [validate, wp_bind, fileExist, wp_gets]
  refine wp_ite (fun hnone => ?_) fun hsome => ?_
  · refine hfail _ (.inr fun hgood => ?_) r hr s hs.1
    obtain ⟨file, hfile, -⟩ := hs.2 hgood
    simp [hfile] at hnone
  · let There (s : St) : Prop := Fetched env old s ∧ (s.disk env.exeTmp).isSome = true
    have hthere : Steady env There :=
      ⟨fun s n hn h => ⟨Fetched.steady.asked s n hn h.1, h.2⟩,
        fun s e he h => ⟨Fetched.steady.aside s e he h.1, h.2⟩⟩
    refine Leads.bind (hthere.fileGetSize fun err s hs h => ?_) (fun size => ?_) r hr s
      ⟨hs, by rwa [Bool.not_eq_true', Bool.not_eq_false] at hsome⟩
    · refine hs.1.1.thrown (.inl ?_) err
      obtain ⟨n, hn⟩ := h.resolve_right fun hnone => by simp [There, hnone] at hs
      exact ⟨n, _, by simp [Env.fetches], hn⟩
    · refine .ite (fun hsmall => ?_) fun hlarge => ?_
      · rintro r hr s ⟨⟨hfetched, -⟩, file, hfile, rfl⟩
        have hhindered : Hindered env := by
          refine .inr fun hgood => ?_
          obtain ⟨file', hfile', hsize⟩ := hfetched.2 hgood
          cases hfile.symm.trans hfile'
          omega
        have hdelete : Leads (· = env) (Fetching env old) (fun _ => Fetching env old)
            (Ends env old) (tryFileDelete env.exeTmp) :=
          Fetching.steady.tryFileDelete (replaces_delete_of_ne (exeTmp_ne_exeDest env))
            fun s hs => hs.change (exeTmp_mem_files env) (exeTmp_ne_exeDest env)
        exact (hdelete.bind fun _ => hfail _ hhindered) r hr s hfetched.1
      · refine .pure fun s hs => ?_
        obtain ⟨⟨hfetched, -⟩, file, hfile, rfl⟩ := hs
        exact ⟨file, hfetched.1.ready hfile (by omega)⟩

end Fetch

/-! ## Replacing the program -/

section Replace

variable {env : Env} {old : Disk} {new : File} {refusals : ℕ}

theorem Ready.refused {s : St} (h : Ready env old new refusals s) {op : Op}
    (hop : env.replaces op = true) (hn : env.refuses s.asked op = true) :
    Ready env old new (refusals + 1) (St.record (.failed op) { s with asked := s.asked + 2 }) := by
  refine ⟨h.size, ⟨h.held.moments, h.held.launched, ?_, ?_⟩, h.beside, h.program⟩
  · have hcount := h.held.failed
    rw [St.refusals] at hcount ⊢
    rw [St.record, List.countP_cons_of_pos (by simpa [Event.refusal] using hop), hcount]
  · obtain ⟨asked, hcard, hrefused⟩ := h.held.refused
    have hnew : s.asked ∉ asked := fun hmem => Nat.lt_irrefl _ (hrefused _ hmem).1
    refine ⟨insert s.asked asked, by rw [Finset.card_insert_of_notMem hnew, hcard], ?_⟩
    intro n hmem
    obtain rfl | hmem := Finset.mem_insert.1 hmem
    · exact ⟨Nat.lt_add_of_pos_right (by decide), op, hop, hn⟩
    · exact ⟨(hrefused n hmem).1.trans (Nat.lt_add_of_pos_right (by decide)), (hrefused n hmem).2⟩

/-- An attempt to replace the program has failed. -/
def Refused (env : Env) (old : Disk) (new : File) (refusals : ℕ) (e : Abort Err) (s : St) : Prop :=
  Ready env old new refusals s ∧ ∃ err, e = .thrown err

theorem Ready.attempt {op : Op} (hop : env.replaces op = true) {possible : Disk → Bool}
    (R : Disk → Prop) (hR : ∀ d, R d → possible d = true) :
    Leads (· = env) (fun s => Ready env old new refusals s ∧ R s.disk)
      (fun _ s => Ready env old new refusals s ∧ R s.disk) (Refused env old new (refusals + 1))
      (attempt op possible) := by
  rintro _ rfl s ⟨hs, hdisk⟩
  refine wp_attempt op possible (fun _ => ?_) fun err h => ?_
  · exact ⟨Ready.steady.asked s _ (Nat.le_add_right _ _) hs, hdisk⟩
  · exact ⟨hs.refused hop (h.resolve_right (by simp [hR _ hdisk])), err, rfl⟩

theorem exeDest_mem_files (env : Env) : env.exeDest ∈ env.files := by simp [Env.files]

/-- The program is out of the way, and its successor stands beside the place it left. -/
theorem Ready.deleted {s : St} (h : Ready env old new refusals s) :
    Ready env old new refusals (s.change (Function.update s.disk env.exeDest none)) := by
  have hmidway := h.held.moments s.disk List.mem_cons_self
  generalize hdeleted : Function.update s.disk env.exeDest none = deleted
  have htmp : deleted env.exeTmp = some new := by
    rw [← hdeleted, Function.update_of_ne (exeTmp_ne_exeDest env), h.beside]
  have hdest : deleted env.exeDest = none := by rw [← hdeleted, Function.update_self]
  have hnow : Midway env old (some new) deleted := by
    refine ⟨fun path hpath => ?_, .inr (.inl hdest), .inr ⟨Option.some_ne_none new, .inl htmp⟩⟩
    have hne : path ≠ env.exeDest := fun heq => hpath (heq ▸ exeDest_mem_files env)
    rw [← hdeleted, Function.update_of_ne hne, hmidway.others path hpath]
  exact ⟨h.size, h.held.change hnow, htmp, .inr hdest⟩

theorem Ready.moved {s : St} (h : Ready env old new refusals s) :
    Installed env old new [] refusals (s.change (Function.update
      (Function.update s.disk env.exeDest (s.disk env.exeTmp)) env.exeTmp none)) := by
  have hmidway := h.held.moments s.disk List.mem_cons_self
  generalize hmoved : Function.update (Function.update s.disk env.exeDest (s.disk env.exeTmp))
    env.exeTmp none = moved
  have hdest : moved env.exeDest = some new := by
    rw [← hmoved, Function.update_of_ne (exeTmp_ne_exeDest env).symm, Function.update_self,
      h.beside]
  have htmp : moved env.exeTmp = none := by rw [← hmoved, Function.update_self]
  have hnow : Midway env old (some new) moved := by
    refine ⟨fun path hpath => ?_, .inr (.inr hdest), .inr ⟨Option.some_ne_none new, .inr hdest⟩⟩
    have hne : path ≠ env.exeTmp := fun heq => hpath (heq ▸ exeTmp_mem_files env)
    have hne' : path ≠ env.exeDest := fun heq => hpath (heq ▸ exeDest_mem_files env)
    rw [← hmoved, Function.update_of_ne hne, Function.update_of_ne hne', hmidway.others path hpath]
  exact ⟨h.size, h.held.change hnow, hdest, htmp⟩

theorem leads_replaceOnce (hrefusals : refusals ≤ 19) :
    Leads (· = env) (Ready env old new refusals) (fun t s => match t with
      | .leave r => r.ok = true ∧ Installed env old new [] refusals s
      | .again _ => Ready env old new (refusals + 1) s) (Ends env old)
      (replaceOnce env.exeTmp env.exeDest) := by
  let Free (d : Disk) : Prop := d env.exeDest = none
  have hdelete : Leads (· = env) (Ready env old new refusals)
      (fun _ s => Ready env old new refusals s ∧ Free s.disk)
      (Refused env old new (refusals + 1)) (deleteIfExists env.exeDest) := by
    rintro r hr s hs
    rw [deleteIfExists, wp_bind, fileExist, wp_gets]
    apply wp_ite
    · intro hthere
      refine Leads.bind (Ready.attempt (by simp [Env.replaces])
        (fun d => (d env.exeDest).isSome = true) fun _ h => h) (fun _ => ?_) r hr s ⟨hs, hthere⟩
      rintro _ _ s ⟨hs, -⟩
      have hfree : Free (Function.update s.disk env.exeDest none) := by
        simp only [Free, Function.update_self]
      exact (wp_update _).2 ⟨hs.deleted, hfree⟩
    · intro hgone
      exact (wp_pure _).2 ⟨hs, by simpa using hgone⟩
  have hmove : Leads (· = env) (fun s => Ready env old new refusals s ∧ Free s.disk)
      (fun _ => Installed env old new [] refusals) (Refused env old new (refusals + 1))
      (fileMove env.exeTmp env.exeDest) := by
    rintro r hr s hs
    refine Leads.bind (Ready.attempt (by simp [Env.replaces])
      (fun d => d env.exeTmp = some new ∧ Free d) fun d h => ?_) (fun _ => ?_) r hr s
      ⟨hs.1, hs.1.beside, hs.2⟩
    · simp [Free, h.1] at h ⊢
      exact h
    · exact fun _ _ s hs => (wp_update _).2 hs.1.moved
  refine Leads.rescue (hdelete.bind fun _ => hmove.bind fun _ => .pure fun s hs => ⟨rfl, hs⟩)
    (fun e => ?_) fun e s hno he => ?_
  · refine .bind ?_ fun _ => .pure fun s hs => hs
    refine (Ready.steady.sleep 500 fun s hs hclosed => ?_).mono (fun s hs => hs.1) fun _ _ h => h
    exact .inr (.inl ⟨new, refusals + 1, hs, fun _ => ⟨by omega, hclosed⟩, fun h => absurd rfl h⟩)
  · obtain ⟨-, err, rfl⟩ := he
    exact absurd rfl (hno err)

/-- Twenty attempts are made, so up to nineteen of them may fail. -/
theorem leads_replaceExe : Leads (· = env) (Ready env old new 0)
    (fun r s => (r.ok = true ∧ ∃ refusals ≤ 19, Installed env old new [] refusals s) ∨
      (r.ok = false ∧ Ready env old new 20 s)) (Ends env old)
    (replaceExe env.exeTmp env.exeDest) := by
  intro r hr s hs
  refine wp_loop (fun left _ s => ∃ k, left + k = 20 ∧ Ready env old new k s) ?_ ?_ 20 "" s
    ⟨0, rfl, hs⟩
  · rintro left err s ⟨k, hk, hs⟩
    apply wp_imp (leads_replaceOnce (by omega) r hr s hs)
    intro t s' ht
    cases t with
    | leave r => exact .inl ⟨ht.1, k, by omega, ht.2⟩
    | again err => exact ⟨k + 1, by omega, ht⟩
  · rintro err s ⟨k, hk, hs⟩
    obtain rfl : k = 20 := by omega
    exact (wp_pure _).2 (.inr ⟨rfl, hs⟩)

theorem leads_updateExe (hshell : Shell env) (hdir : Readable env.exeDir.toList) :
    Leads (· = env) (Fetching env old)
      (fun _ s => ∃ new, ∃ refusals ≤ 19, Installed env old new [] refusals s) (Ends env old)
      (updateExe env.exeTmp env.exeDest) := by
  refine (leads_downloadExe hshell hdir).bind fun _ => leads_validate.bind fun _ =>
    .ghost fun new => leads_replaceExe.bind fun r => .ite (fun hfail => ?_) fun hok => ?_
  · refine (Ready.steady.fail (P := Ready env old new 20) _ (fun s hs hclosed => ?_)
      fun s hs => ?_).mono (fun s hs => ?_) fun _ _ hf => hf.elim
    · exact .inr (.inl ⟨new, 20, hs, fun _ => ⟨le_rfl, hclosed⟩, fun h => absurd rfl h⟩)
    · exact .inr (.inl ⟨new, 20, hs, by simp, fun _ => ⟨rfl, rfl⟩⟩)
    · obtain ⟨hok, -⟩ | ⟨-, hready⟩ := hs
      · simp [hok] at hfail
      · exact hready
  · refine .pure fun s hs => ?_
    obtain ⟨-, k, hk, hinstalled⟩ | ⟨hbad, -⟩ := hs
    · exact ⟨new, k, hk, hinstalled⟩
    · simp [hbad] at hok

end Replace

/-! ## After the replacement -/

section After

variable {env : Env} {old : Disk} {new : File} {launches : List (String × File)} {refusals : ℕ}

/-- Nothing that happens to the other two files matters any more. -/
theorem Installed.change {s : St} (h : Installed env old new launches refusals s) {d : Disk}
    (hd : ∀ path, path ≠ env.ahkDest → path ≠ env.ahkTmp → d path = s.disk path) :
    Installed env old new launches refusals (s.change d) := by
  have hprogram : d env.exeDest = some new :=
    (hd _ (ahk_ne_exe (.inl rfl)).1.symm (ahk_ne_exe (.inr rfl)).1.symm).trans h.program
  have hbeside : d env.exeTmp = none :=
    (hd _ (ahk_ne_exe (.inl rfl)).2.symm (ahk_ne_exe (.inr rfl)).2.symm).trans h.beside
  have hnow : Midway env old (some new) d := by
    refine ⟨fun path hpath => ?_, .inr (.inr hprogram),
      .inr ⟨Option.some_ne_none new, .inr hprogram⟩⟩
    have hothers := (h.held.moments s.disk List.mem_cons_self).others path hpath
    simp only [Env.files, List.mem_cons, not_or] at hpath
    rw [hd path hpath.2.2.1 hpath.2.2.2.1, hothers]
  exact ⟨h.size, h.held.change hnow, hprogram, hbeside⟩

theorem Installed.closed {s : St} (h : Installed env old new launches refusals s)
    (hrefusals : refusals ≤ 19) (hlaunches : launches = [] ∨ launches = [(env.exeDest, new)])
    (hclosed : ∃ n, env.closes n = true) : Ends env old .closed s :=
  .inr (.inr ⟨new, launches, refusals, h, hrefusals, hlaunches, fun _ => hclosed,
    fun hne => absurd rfl hne⟩)

theorem replaces_ahk {path : String} (hpath : path = env.ahkDest ∨ path = env.ahkTmp) :
    env.replaces (.delete path) = false := replaces_delete_of_ne (ahk_ne_exe hpath).1

theorem leads_updateAhk (hshell : Shell env) (hdir : Readable env.exeDir.toList)
    (hrefusals : refusals ≤ 19) :
    Leads (· = env) (Installed env old new [] refusals) (fun _ => Installed env old new [] refusals)
      (Ends env old) (updateAhk env.ahkTmp env.ahkDest) := by
  let P := Installed env old new [] refusals
  have hP : Steady env P := Installed.steady
  let Failed (e : Abort Err) (s : St) : Prop :=
    P s ∧ ((∃ err, e = .thrown err) ∨ e = .closed ∧ ∃ n, env.closes n = true)
  have hfailed (err : Err) (s : St) (hs : P s) : Failed (.thrown err) s := ⟨hs, .inl ⟨err, rfl⟩⟩
  have hchange {path : String} (hpath : path = env.ahkDest ∨ path = env.ahkTmp) (s : St)
      (content : Option File) (hs : P s) : P (s.change (Function.update s.disk path content)) := by
    refine hs.change fun other hdest htmp => Function.update_of_ne ?_ _ _
    obtain rfl | rfl := hpath
    · exact hdest
    · exact htmp
  have hdelete {path : String} (hpath : path = env.ahkDest ∨ path = env.ahkTmp) :
      Leads (· = env) P (fun _ => P) Failed (deleteIfExists path) :=
    hP.deleteIfExists (replaces_ahk hpath) (fun s hs _ => hs) (fun s hs => hchange hpath s none hs)
      fun err s hs _ => hfailed err s hs
  have hrun : Leads (· = env) P (fun _ => P) Failed (downloadViaPowerShell ahkUrl env.ahkTmp) :=
    (leads_runWait hP hshell ((downloadArgs_ahk_iff env).2 hdir) (hchange (.inr rfl))
      (fun err s hs _ => hfailed err s hs) fun s hs h => ⟨hs, .inr ⟨rfl, h⟩⟩).mono
        (fun _ hs => hs) fun _ _ h => h.1
  have hwhole : Leads (· = env) P (fun _ => P) Failed (do
      if ← fileExist env.ahkTmp then
        let size ← fileGetSize env.ahkTmp
        pure (decide (0 < size))
      else pure false) := by
    refine .bind (Keeps.gets _).leads fun _ => .ite (fun _ => ?_) fun _ => .pure fun _ hs => hs
    refine .bind (hP.fileGetSize fun err s hs _ => hfailed err s hs) fun size => ?_
    exact .pure fun _ hs => hs.1
  have hmove : Leads (· = env) P (fun _ => P) Failed (fileMove env.ahkTmp env.ahkDest) := by
    have hop : env.replaces (.move env.ahkTmp env.ahkDest) = false := by
      simp [Env.replaces, (ahk_ne_exe (.inl rfl)).1]
    refine .bind (hP.attempt hop _ fun err s hs _ => hfailed err s hs) fun _ _ _ s hs => ?_
    refine (wp_update _).2 (hs.1.change fun path hdest htmp => ?_)
    rw [Function.update_of_ne htmp, Function.update_of_ne hdest]
  refine Leads.rescue ((hdelete (.inr rfl)).bind fun _ => hrun.bind fun _ =>
    hwhole.bind fun whole =>
    .ite (fun _ => (hdelete (.inl rfl)).bind fun _ => hmove) fun _ =>
      hP.tryFileDelete (replaces_ahk (.inr rfl)) fun s hs => hchange (.inr rfl) s none hs)
        (fun e => .pure fun s hs => hs.1) fun e s hno he => ?_
  obtain ⟨hs, ⟨err, rfl⟩ | ⟨rfl, hclosed⟩⟩ := he
  · exact absurd rfl (hno err)
  · exact hs.closed hrefusals (.inl rfl) hclosed

/-- The program that is started is the new one. -/
def Relaunched (env : Env) (old : Disk) (new : File) (refusals : ℕ) (s : St) : Prop :=
  ∃ launches, (launches = [] ∨ launches = [(env.exeDest, new)]) ∧
    Installed env old new launches refusals s

theorem Installed.launch {s : St} (h : Installed env old new [] refusals s) :
    Installed env old new [(env.exeDest, new)] refusals (s.record (.ran env.exeDest new)) := by
  refine ⟨h.size, ⟨h.held.moments, ?_, ?_, h.held.refused⟩, h.program, h.beside⟩
  · have hlaunched := h.held.launched
    rw [St.launches] at hlaunched ⊢
    rw [St.record, List.filterMap_cons_some (f := Event.launch) rfl, hlaunched]
  · rw [← h.held.failed, St.refusals, St.record, List.countP_cons_of_neg (by simp [Event.refusal])]
    rfl

theorem leads_relaunch (hrefusals : refusals ≤ 19) :
    Leads (· = env) (Installed env old new [] refusals)
      (fun _ => Relaunched env old new refusals) (Ends env old) (relaunch env.exeDest) := by
  let P := Installed env old new [] refusals
  have hrun : Leads (· = env) P (fun _ => Relaunched env old new refusals)
      (fun e s => P s ∧ ∃ err, e = .thrown err) (run env.exeDest) := by
    refine .bind (Installed.steady.attempt rfl _ fun err s hs _ => ⟨hs, err, rfl⟩) fun _ => ?_
    rintro _ _ s ⟨hs, -⟩
    rw [wp_bind, wp_gets, wp_log, id, hs.program, Option.getD_some]
    exact ⟨_, .inr rfl, hs.launch⟩
  refine hrun.rescue (fun e => ?_) fun e s hno he => ?_
  · refine (Installed.steady.msgBox (P := P) _ _ _ fun s hs hclosed => ?_).mono (fun s hs => hs.1)
      fun _ s hs => ⟨[], .inl rfl, hs⟩
    exact hs.closed hrefusals (.inl rfl) hclosed
  · obtain ⟨-, err, rfl⟩ := he
    exact absurd rfl (hno err)

theorem fetching_start (env : Env) (old : Disk) : Fetching env old { disk := old } where
  moments d hd := by
    obtain rfl := List.mem_singleton.1 hd
    exact ⟨fun _ _ => rfl, .inl rfl, .inl rfl⟩
  launched := rfl
  failed := rfl
  refused := ⟨∅, rfl, by simp⟩

/-- Every run of the updater ends in one of the three ways. -/
theorem updater_ends (hshell : Shell env) (hdir : Readable env.exeDir.toList) (old : Disk) :
    ∃ e s, runUpdater env old = (.error e, s) ∧ Ends env old e s := by
  have hstart := fetching_start env old
  have hupdate : wp updater (fun _ _ => False) (Ends env old) env { disk := old } := by
    rw [updater, wp_bind]
    refine wp_imp (leads_waitForExit env rfl _ hstart) fun _ s hs => ?_
    rw [wp_bind]
    refine wp_imp (Fetching.steady.sleep 1500 (fun s => Fetching.closed) env rfl s hs)
      fun _ s hs => ?_
    simp only [wp_bind, wp_constant]
    refine wp_imp (leads_updateExe hshell hdir env rfl s hs) fun _ s hs => ?_
    obtain ⟨new, refusals, hrefusals, hs⟩ := hs
    refine wp_imp (leads_updateAhk hshell hdir hrefusals env rfl s hs) fun _ s hs => ?_
    refine wp_imp (leads_relaunch hrefusals env rfl s hs) fun _ s hs => (wp_abort _).2 ?_
    obtain ⟨launches, hlaunches, hs⟩ := hs
    exact .inr (.inr ⟨new, launches, refusals, hs, hrefusals, hlaunches, by simp, fun _ => rfl⟩)
  exact exists_end hupdate

end After

end WagonMove.Updater
