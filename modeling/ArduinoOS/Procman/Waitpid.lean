import ArduinoOS.Procman.Manager
import ArduinoOS.Procman.ProcessMemory
import ArduinoOS.Procman.Steps

/-!
# Waiting for the end of a process

Nobody waits for a process that does not exist, and whoever waits for one when
it ends goes on with its exit status. Each part of the process manager either
leaves the table alone, or changes one entry, or ends one process.
-/

set_option autoImplicit false

namespace ArduinoOS.Procman
open ArduinoOS.Faulting ArduinoOS.Kernel ArduinoOS.Minifs

/-! ### The table -/

/-- The entries with a state are those of the processes that exist. -/
def Sound (t : ProcTable) : Prop := ∀ p, (t p).state ≠ .unused ↔ Live t p

/-- Whoever is waited for exists. -/
def NoDeadWait (t : ProcTable) : Prop :=
  ∀ w p timeoutTime, (t w).state = .waitingWaitpid p timeoutTime → Live t p

theorem waitsFor_iff {state : ProcManProcessState} {pid : ℕ} :
    state.waitsFor pid = true ↔ ∃ timeoutTime, state = .waitingWaitpid pid timeoutTime := by
  cases state with
  | waitingWaitpid p timeoutTime =>
    simp only [ProcManProcessState.waitsFor, beq_iff_eq]
    constructor
    · rintro rfl
      exact ⟨timeoutTime, rfl⟩
    · rintro ⟨_, h⟩
      cases h
      rfl
  | _ => exact ⟨fun h => (nomatch h), fun ⟨_, h⟩ => nomatch h⟩

theorem live_update {t : ProcTable} {pid : ℕ} {e : ProcManProcess} {p : ℕ} :
    Live (Function.update t pid e) p ↔
      if p = pid then p < ProcManPidMax ∧ e.progmemFd ≠ KernelFsFdInvalid else Live t p := by
  unfold Live
  by_cases h : p = pid
  · rw [if_pos h, h, Function.update_self]
  · rw [if_neg h, Function.update_of_ne h]

theorem findUnusedPid_unused {t : ProcTable} (h : procManFindUnusedPid t ≠ ProcManPidMax) :
    procManFindUnusedPid t < ProcManPidMax ∧ (t (procManFindUnusedPid t)).state = .unused := by
  unfold procManFindUnusedPid at h ⊢
  cases hf : (List.range ProcManPidMax).find? (fun i => (t i).state == .unused) with
  | none =>
    rw [hf] at h
    exact absurd rfl h
  | some i =>
    exact ⟨List.mem_range.mp (List.mem_of_find?_eq_some hf), by simpa using List.find?_some hf⟩

/-! ### Waking -/

section Waking

variable {φ : Type} {F : Files φ}

theorem wakeWaiter_cases {exitStatus : UInt16} {w : ℕ} {b : Bool} {s s' : ProcTable × φ}
    (h : wakeWaiter F exitStatus w s = .ok (b, s')) :
    procManProcessSaveProcDataReg F (s.1 w) 0 exitStatus s.2 = .ok (b, s'.2) ∧
      s'.1 = if b then Function.update s.1 w { s.1 w with state := .active } else s.1 := by
  obtain ⟨saved, s₁, hsave, h⟩ := bind_ok.mp h
  obtain ⟨hsave, htable⟩ := onSecond_ok.mp hsave
  obtain ⟨table, s₂, hget, h⟩ := bind_ok.mp h
  obtain ⟨rfl, rfl⟩ := getFirst_ok.mp hget
  cases saved with
  | true =>
    obtain ⟨_, s₃, hset, h⟩ := bind_ok.mp h
    have hs := setFirst_ok.mp hset
    obtain ⟨rfl, rfl⟩ := pure_ok.mp h
    subst hs
    exact ⟨hsave, by rw [if_pos rfl, htable]⟩
  | false =>
    obtain ⟨rfl, rfl⟩ := pure_ok.mp h
    exact ⟨hsave, htable⟩

/-- Each entry stays, or its process has been woken; when all could be stored,
all have been. -/
theorem wakeWaiters_table {pid : ℕ} {exitStatus : UInt16} {l : List ℕ} {b : Bool}
    {s s' : ProcTable × φ} (h : wakeWaiters F pid exitStatus l s = .ok (b, s')) (w : ℕ) :
    (s'.1 w = s.1 w ∨
      (Waits s.1 w pid ∧ s'.1 w = { s.1 w with state := .active })) ∧
    (b = true → w ∈ l → Waits s.1 w pid → s'.1 w = { s.1 w with state := .active }) := by
  induction l generalizing s b with
  | nil =>
    obtain ⟨rfl, rfl⟩ := pure_ok.mp h
    exact ⟨Or.inl rfl, fun _ hw => nomatch hw⟩
  | cons x rest ih =>
    obtain ⟨table, s₁, hget, h⟩ := bind_ok.mp h
    obtain ⟨rfl, rfl⟩ := getFirst_ok.mp hget
    split at h
    case isFalse hx =>
      obtain ⟨hany, hall⟩ := ih h
      refine ⟨hany, fun hb hw hwaits => ?_⟩
      rcases List.mem_cons.mp hw with rfl | hw
      · exact absurd hwaits hx
      · exact hall hb hw hwaits
    case isTrue hx =>
      obtain ⟨saved, s₂, hwake, h⟩ := bind_ok.mp h
      obtain ⟨all, s₃, hrest, h⟩ := bind_ok.mp h
      obtain ⟨rfl, rfl⟩ := pure_ok.mp h
      obtain ⟨_, htable⟩ := wakeWaiter_cases hwake
      obtain ⟨hany, hall⟩ := ih hrest
      cases saved with
      | false =>
        rw [if_neg (by decide)] at htable
        rw [htable] at hany
        exact ⟨hany, fun hb => nomatch hb⟩
      | true =>
        rw [if_pos rfl] at htable
        by_cases hwx : w = x
        · -- an active process is not woken again
          have hself : s₂.1 w = { s₁.1 w with state := .active } := by
            rw [htable, hwx, Function.update_self]
          have hdone : ¬ Waits s₂.1 w pid := fun hwaits => by
            have h := hwaits.2
            rw [hself] at h
            cases h
          have hstays : s'.1 w = s₂.1 w := by
            rcases hany with h | ⟨h, _⟩
            · exact h
            · exact absurd h hdone
          rw [hstays, hself]
          exact ⟨Or.inr ⟨hwx ▸ hx, rfl⟩, fun _ _ _ => rfl⟩
        · have hsame : s₂.1 w = s₁.1 w := by rw [htable, Function.update_of_ne hwx]
          have hwaits : Waits s₂.1 w pid ↔ Waits s₁.1 w pid := by
            rw [Waits, Waits, Live, Live, hsame]
          rw [hsame, hwaits] at hany
          rw [hsame, hwaits] at hall
          refine ⟨hany, fun hb hw => ?_⟩
          rcases List.mem_cons.mp hw with rfl | hw
          · exact absurd rfl hwx
          · exact hall (by simpa using hb) hw

end Waking

/-! ### What a death comes to -/

/-- The end of a process as it is recorded. -/
structure Recorded {φ : Type} (F : Files φ) (d : Death φ) : Prop where
  alive : Live d.before d.pid
  waking : wakeWaiters F d.pid d.exitStatus (List.range ProcManPidMax)
    (Function.update d.before d.pid .none, d.filesBefore) =
      .ok (d.saved, (d.after, d.filesAfter))

/-- Whoever waited for the process is active, nobody else has changed, and
nobody waits for it any more. -/
structure Woken {φ : Type} (d : Death φ) : Prop where
  died : Live d.before d.pid ∧ ¬ Live d.after d.pid
  woken : ∀ w, w ≠ d.pid → Waits d.before w d.pid →
    d.after w = { d.before w with state := .active }
  others : ∀ w, w ≠ d.pid → ¬ Waits d.before w d.pid → d.after w = d.before w
  nobody : ∀ w, ¬ Waits d.after w d.pid

section Deaths

variable {φ : Type} {F : Files φ} {d : Death φ}

theorem waits_after_none {t : ProcTable} {w pid p : ℕ} :
    Waits (Function.update t pid .none) w p ↔ w ≠ pid ∧ Waits t w p := by
  unfold Waits
  rw [live_update]
  by_cases h : w = pid
  · rw [if_pos h, h]
    simp [ProcManProcess.none, KernelFsFdInvalid]
  · rw [if_neg h, Function.update_of_ne h]
    simp [h]

theorem recorded_entry (h : Recorded F d) {w : ℕ} (hw : w ≠ d.pid) :
    d.after w = d.before w ∨
      (Waits d.before w d.pid ∧ d.after w = { d.before w with state := .active }) := by
  have hany := (wakeWaiters_table h.waking w).1
  simp only [waits_after_none, Function.update_of_ne hw] at hany
  rcases hany with hsame | ⟨hwaits, hactive⟩
  · exact Or.inl hsame
  · exact Or.inr ⟨hwaits.2, hactive⟩

theorem recorded_none (h : Recorded F d) : d.after d.pid = .none := by
  rcases (wakeWaiters_table h.waking d.pid).1 with hsame | ⟨hwaits, _⟩
  · exact hsame.trans (Function.update_self _ _ _)
  · exact absurd rfl (waits_after_none.mp hwaits).1

theorem recorded_dead (h : Recorded F d) : ¬ Live d.after d.pid := fun hlive => by
  have hne := hlive.2
  rw [recorded_none h] at hne
  exact hne rfl

theorem recorded_live (h : Recorded F d) {w : ℕ} (hw : w ≠ d.pid) :
    Live d.after w ↔ Live d.before w := by
  rcases recorded_entry h hw with hsame | ⟨_, hactive⟩
  · rw [Live, Live, hsame]
  · rw [Live, Live, hactive]

theorem recorded_woken (h : Recorded F d) (hsaved : d.saved = true) : Woken d := by
  have hwoken : ∀ w, w ≠ d.pid → Waits d.before w d.pid →
      d.after w = { d.before w with state := .active } := by
    intro w hw hwaits
    have hstart := waits_after_none.mpr ⟨hw, hwaits⟩
    have hactive := (wakeWaiters_table h.waking w).2 hsaved (List.mem_range.mpr hwaits.1.1) hstart
    simpa only [Function.update_of_ne hw] using hactive
  refine ⟨⟨h.alive, recorded_dead h⟩, hwoken, fun w hw hnot => ?_, fun w hwaits => ?_⟩
  · rcases recorded_entry h hw with hsame | ⟨hwaits, _⟩
    · exact hsame
    · exact absurd hwaits hnot
  · by_cases hw : w = d.pid
    · exact recorded_dead h (hw ▸ hwaits.1)
    · rcases recorded_entry h hw with hsame | ⟨_, hactive⟩
      · have hbefore : Waits d.before w d.pid := by
          rw [Waits, Live, ← hsame]
          exact hwaits
        have hactive := hwoken w hw hbefore
        have hstate := hwaits.2
        rw [hactive] at hstate
        cases hstate
      · have hstate := hwaits.2
        rw [hactive] at hstate
        cases hstate

end Deaths

/-! ### Steps of the process manager -/

/-- From one table to another, with the deaths in between. -/
structure Progress {φ : Type} (F : Files φ) (t t' : ProcTable) (new : List (Death φ)) :
    Prop where
  sound : Sound t'
  recorded : ∀ d ∈ new, Recorded F d
  deaths : ∀ p, Live t p → Live t' p ∨ ∃ d ∈ new, d.pid = p
  waits : (∀ d ∈ new, d.saved = true) → NoDeadWait t → NoDeadWait t'

section Progressing

variable {φ : Type} {F : Files φ} {t t₁ t' : ProcTable}

theorem progress_refl (h : Sound t) : Progress F t t [] :=
  ⟨h, fun _ hd => (nomatch hd), fun _ hp => Or.inl hp, fun _ hw => hw⟩

theorem progress_trans {new₁ new₂ : List (Death φ)} (h₁ : Progress F t t₁ new₁)
    (h₂ : Progress F t₁ t' new₂) : Progress F t t' (new₁++new₂) := by
  refine ⟨h₂.sound, fun d hd => ?_, fun p hp => ?_, fun hsaved hw => ?_⟩
  · rcases List.mem_append.mp hd with hd | hd
    · exact h₁.recorded d hd
    · exact h₂.recorded d hd
  · rcases h₁.deaths p hp with hlive | ⟨d, hd, rfl⟩
    · rcases h₂.deaths p hlive with hlive | ⟨d, hd, rfl⟩
      · exact Or.inl hlive
      · exact Or.inr ⟨d, List.mem_append_right _ hd, rfl⟩
    · exact Or.inr ⟨d, List.mem_append_left _ hd, rfl⟩
  · exact h₂.waits (fun d hd => hsaved d (List.mem_append_right _ hd))
      (h₁.waits (fun d hd => hsaved d (List.mem_append_left _ hd)) hw)

/-- Neither programs nor states change. -/
theorem progress_same (h : Sound t)
    (hsame : ∀ p, (t' p).progmemFd = (t p).progmemFd ∧ (t' p).state = (t p).state) :
    Progress F t t' [] := by
  have hlive : ∀ p, Live t' p ↔ Live t p := fun p => by rw [Live, Live, (hsame p).1]
  refine ⟨fun p => ?_, fun _ hd => (nomatch hd), fun p hp => Or.inl ((hlive p).mpr hp),
    fun _ hw w p timeoutTime hstate => ?_⟩
  · rw [(hsame p).2, hlive, h p]
  · rw [(hsame w).2] at hstate
    exact (hlive p).mpr (hw w p timeoutTime hstate)

/-- The entry of a process changes, which stays alive. -/
theorem progress_entry {pid : ℕ} {e : ProcManProcess} (h : Sound t) (hpid : Live t pid)
    (hprog : e.progmemFd ≠ KernelFsFdInvalid) (hused : e.state ≠ .unused)
    (hwaits : ∀ p timeoutTime, e.state = .waitingWaitpid p timeoutTime →
      Live t p ∨ (t pid).state = .waitingWaitpid p timeoutTime) :
    Progress F t (Function.update t pid e) [] := by
  have hlive : ∀ p, Live (Function.update t pid e) p ↔ Live t p := by
    intro p
    rw [live_update]
    by_cases hp : p = pid
    · rw [if_pos hp, hp]
      exact ⟨fun _ => hpid, fun _ => ⟨hpid.1, hprog⟩⟩
    · rw [if_neg hp]
  refine ⟨fun p => ?_, fun _ hd => (nomatch hd), fun p hp => Or.inl ((hlive p).mpr hp),
    fun _ hw w p timeoutTime hstate => ?_⟩
  · rw [hlive]
    by_cases hp : p = pid
    · rw [hp, Function.update_self]
      exact ⟨fun _ => hpid, fun _ => hused⟩
    · rw [Function.update_of_ne hp, h p]
  · rw [hlive]
    by_cases hwp : w = pid
    · rw [hwp, Function.update_self] at hstate
      rcases hwaits p timeoutTime hstate with hp | hp
      · exact hp
      · exact hw pid p timeoutTime hp
    · rw [Function.update_of_ne hwp] at hstate
      exact hw w p timeoutTime hstate

/-- An unused entry becomes another one. -/
theorem progress_fresh {pid : ℕ} {e : ProcManProcess} (h : Sound t)
    (hfree : pid < ProcManPidMax ∧ (t pid).state = .unused)
    (he : e = .none ∨ e.progmemFd ≠ KernelFsFdInvalid ∧ e.state = .active) :
    Progress F t (Function.update t pid e) [] := by
  have hdead : ¬ Live t pid := fun hlive => (h pid).mpr hlive hfree.2
  have hlive : ∀ p, Live t p → Live (Function.update t pid e) p := by
    intro p hp
    have hne : p ≠ pid := by
      rintro rfl
      exact hdead hp
    rw [live_update, if_neg hne]
    exact hp
  refine ⟨fun p => ?_, fun _ hd => (nomatch hd), fun p hp => Or.inl (hlive p hp),
    fun _ hw w p timeoutTime hstate => hlive p ?_⟩
  · rw [live_update]
    by_cases hp : p = pid
    · rw [if_pos hp, hp, Function.update_self]
      rcases he with rfl | ⟨hprog, hstate⟩
      · exact ⟨fun hne => absurd rfl hne, fun hne => absurd rfl hne.2⟩
      · rw [hstate]
        exact ⟨fun _ => ⟨hfree.1, hprog⟩, fun _ => by decide⟩
    · rw [if_neg hp, Function.update_of_ne hp, h p]
  · by_cases hwp : w = pid
    · rw [hwp, Function.update_self] at hstate
      rcases he with rfl | ⟨_, hactive⟩
      · cases hstate
      · rw [hactive] at hstate
        cases hstate
    · rw [Function.update_of_ne hwp] at hstate
      exact hw w p timeoutTime hstate

theorem progress_death {d : Death φ} (h : Sound d.before) (hd : Recorded F d) :
    Progress F d.before d.after [d] := by
  refine ⟨fun p => ?_, fun d' hd' => List.mem_singleton.mp hd' ▸ hd, fun p hp => ?_,
    fun hsaved hw w p timeoutTime hstate => ?_⟩
  · by_cases hp : p = d.pid
    · rw [hp, recorded_none hd]
      exact ⟨fun hne => absurd rfl hne, fun hlive => absurd hlive (recorded_dead hd)⟩
    · rw [recorded_live hd hp, ← h p]
      rcases recorded_entry hd hp with hsame | ⟨hwaits, hactive⟩
      · rw [hsame]
      · rw [hactive]
        exact ⟨fun _ => (h p).mpr hwaits.1, fun _ => (fun hne => nomatch hne)⟩
  · by_cases hpid : p = d.pid
    · exact Or.inr ⟨d, List.mem_singleton_self d, hpid.symm⟩
    · exact Or.inl ((recorded_live hd hpid).mpr hp)
  · have hwoken := recorded_woken hd (hsaved d (List.mem_singleton_self d))
    have hne : w ≠ d.pid := by
      rintro rfl
      rw [recorded_none hd] at hstate
      cases hstate
    rcases recorded_entry hd hne with hsame | ⟨_, hactive⟩
    · rw [hsame] at hstate
      have hlive := hw w p timeoutTime hstate
      by_cases hp : p = d.pid
      · have hused : (d.before w).state ≠ .unused := by
          rw [hstate]
          exact fun heq => nomatch heq
        have hwaits : Waits d.before w d.pid :=
          ⟨(h w).mp hused, waitsFor_iff.mpr ⟨timeoutTime, hp ▸ hstate⟩⟩
        have hactive := hwoken.woken w hne hwaits
        rw [hsame] at hactive
        rw [hactive] at hstate
        cases hstate
      · exact (recorded_live hd hp).mpr hlive
    · rw [hactive] at hstate
      cases hstate

end Progressing

/-! ### Parts of the process manager -/

/-- From a sound table with this property, a run makes progress. -/
def Progresses {φ α : Type} (F : Files φ) (P : ProcTable → Prop)
    (x : ProcManRun (Logged φ) α) : Prop :=
  ∀ s a s', Sound s.1 → P s.1 → x s = .ok (a, s') →
    ∃ new, s'.2.1 = s.2.1++new ∧ Progress F s.1 s'.1 new

/-- The same beside the ghost. -/
def Steady {φ α : Type} (F : Files φ) (P : ProcTable → Prop) (x : ProcManRun φ α) : Prop :=
  ∀ s a s', Sound s.1 → P s.1 → x s = .ok (a, s') → Progress F s.1 s'.1 []

/-- No process has ended since. -/
def SameLog {φ : Type} (s s' : Logged φ) : Prop := s'.1 = s.1

section Parts

variable {φ α β : Type} {F : Files φ} {P : ProcTable → Prop}

theorem loggedFiles_step : FilesStep (loggedFiles F) SameLog := by
  have hop : ∀ {γ : Type} (x : Run φ Fault γ),
      Related SameLog (onSecond (fun _ => x) : Run (Logged φ) Fault γ) :=
    fun x s a s' hrun => (onSecond_ok.mp hrun).2
  exact ⟨fun _ => rfl, fun _ _ _ h h' => h'.trans h, fun _ _ _ => hop _, fun _ _ _ => hop _,
    fun _ _ => hop _, fun _ => hop _, fun _ _ => hop _, fun _ => hop _, fun _ => hop _⟩

theorem beside_ok {x : ProcManRun φ α} {a : α} {s s' : ProcTable × Logged φ}
    (h : beside x s = .ok (a, s')) :
    x (s.1, s.2.2) = .ok (a, (s'.1, s'.2.2)) ∧ s'.2.1 = s.2.1 := by
  unfold beside at h
  cases hx : x (s.1, s.2.2) with
  | error e =>
    rw [hx] at h
    cases h
  | ok r =>
    rw [hx] at h
    cases h
    exact ⟨rfl, rfl⟩

theorem onFilesOf_quiet (x : ProcTable → Run φ Fault α) : Quiet SameLog (onFilesOf x) := by
  intro s a s' hrun
  obtain ⟨hrun, hlog⟩ := beside_ok hrun
  exact ⟨(onSecond_ok.mp hrun).2, hlog⟩

theorem progresses_beside {x : ProcManRun φ α} (h : Steady F P x) : Progresses F P (beside x) := by
  intro s a s' hs hp hrun
  obtain ⟨hrun, hlog⟩ := beside_ok hrun
  exact ⟨[], by rw [hlog, List.append_nil], h _ _ _ hs hp hrun⟩

theorem progresses_quiet {x : ProcManRun (Logged φ) α} (h : Quiet SameLog x) :
    Progresses F P x := by
  intro s a s' hs _ hrun
  obtain ⟨htable, hlog⟩ := h s a s' hrun
  refine ⟨[], by rw [hlog, List.append_nil], ?_⟩
  rw [htable]
  exact progress_refl hs

theorem progresses_quiet_bind {x : ProcManRun (Logged φ) α} {f : α → ProcManRun (Logged φ) β}
    (hx : Quiet SameLog x) (hf : ∀ a, Progresses F P (f a)) : Progresses F P (x >>= f) := by
  intro s b s' hs hp hrun
  obtain ⟨a, s₁, hfirst, hrest⟩ := bind_ok.mp hrun
  obtain ⟨htable, hlog⟩ := hx _ _ _ hfirst
  rw [← htable] at hs hp
  obtain ⟨new, hnew, hprogress⟩ := hf a _ _ _ hs hp hrest
  rw [hlog] at hnew
  exact ⟨new, hnew, htable ▸ hprogress⟩

theorem progresses_bind_quiet {x : ProcManRun (Logged φ) α} {f : α → ProcManRun (Logged φ) β}
    (hx : Progresses F P x) (hf : ∀ a, Quiet SameLog (f a)) : Progresses F P (x >>= f) := by
  intro s b s' hs hp hrun
  obtain ⟨a, s₁, hfirst, hrest⟩ := bind_ok.mp hrun
  obtain ⟨new, hnew, hprogress⟩ := hx _ _ _ hs hp hfirst
  obtain ⟨htable, hlog⟩ := hf a _ _ _ hrest
  exact ⟨new, by rw [hlog, hnew], htable ▸ hprogress⟩

theorem progresses_pure (a : α) : Progresses F P (pure a) :=
  progresses_quiet (quiet_pure (loggedFiles_step (F := F)) a)

theorem setState_ok {pid : ℕ} {state : ProcManProcessState} {u : Unit} {s s' : ProcTable × φ}
    (h : setState pid state s = .ok (u, s')) :
    s' = (Function.update s.1 pid { s.1 pid with state := state }, s.2) := by
  obtain ⟨table, s₁, hget, hset⟩ := bind_ok.mp h
  obtain ⟨rfl, rfl⟩ := getFirst_ok.mp hget
  exact setFirst_ok.mp hset

theorem progress_state {pid : ℕ} {state : ProcManProcessState} {t : ProcTable} (h : Sound t)
    (hp : Live t pid) (hused : state ≠ .unused)
    (hwaits : ∀ p timeoutTime, state ≠ .waitingWaitpid p timeoutTime) :
    Progress F t (Function.update t pid { t pid with state := state }) [] :=
  progress_entry h hp hp.2 hused
    (fun p timeoutTime hstate => absurd hstate (hwaits p timeoutTime))

theorem setState_progresses {pid : ℕ} {state : ProcManProcessState} (hused : state ≠ .unused)
    (hwaits : ∀ p timeoutTime, state ≠ .waitingWaitpid p timeoutTime) :
    Progresses F (fun t => Live t pid) (setState pid state) := by
  intro s a s' hs hp hrun
  have h := setState_ok hrun
  subst h
  exact ⟨[], (List.append_nil _).symm, progress_state hs hp hused hwaits⟩

theorem kill_progresses (pid : ℕ) (exitStatus : UInt16)
    (procDataGiven : Option ProcManProcessProcData) :
    Progresses F P (procManProcessKill F pid exitStatus procDataGiven) := by
  intro s a s' hs _ hrun
  unfold procManProcessKill at hrun
  split at hrun
  case isTrue => cases hrun
  case isFalse =>
    split at hrun
    case isFalse =>
      cases hrun
      exact ⟨[], (List.append_nil _).symm, progress_refl hs⟩
    case isTrue hlive =>
      cases hk : killProcess F pid exitStatus procDataGiven (s.1, s.2.2) with
      | error e =>
        rw [hk] at hrun
        cases hrun
      | ok r =>
        rw [hk] at hrun
        cases hrun
        obtain ⟨r, s'⟩ := r
        refine ⟨[r.2], rfl, ?_⟩
        obtain ⟨table, s₁, hget, hk⟩ := bind_ok.mp hk
        obtain ⟨rfl, rfl⟩ := getFirst_ok.mp hget
        obtain ⟨procData, s₂, hfiles, hk⟩ := bind_ok.mp hk
        obtain ⟨_, s₃, hset, hk⟩ := bind_ok.mp hk
        have hset := setFirst_ok.mp hset
        subst hset
        obtain ⟨filesBefore, s₄, hbefore, hk⟩ := bind_ok.mp hk
        cases hbefore
        obtain ⟨saved, s₅, hwake, hk⟩ := bind_ok.mp hk
        obtain ⟨woken, s₆, hafter, hk⟩ := bind_ok.mp hk
        cases hafter
        obtain ⟨rfl, rfl⟩ := pure_ok.mp hk
        exact progress_death (d := ⟨pid, exitStatus, s.1, _, _, _, saved⟩) hs ⟨hlive, hwake⟩

end Parts

/-! ### Signals, forks and execs -/

section Calls

variable {φ : Type} {F : Files φ} {P : ProcTable → Prop}

theorem sendSignal_table {pid signalId : ℕ} {u : Unit} {s s' : ProcTable × φ}
    (h : procManProcessSendSignal F pid signalId s = .ok (u, s')) :
    s'.1 = s.1 ∨ (Live s.1 pid ∧
      s'.1 = Function.update s.1 pid { s.1 pid with state := .active }) := by
  unfold procManProcessSendSignal at h
  split at h
  case isTrue =>
    cases h
    exact Or.inl rfl
  case isFalse =>
    split at h
    case isTrue =>
      cases h
      exact Or.inl rfl
    case isFalse =>
      obtain ⟨table, s₁, hget, h⟩ := bind_ok.mp h
      obtain ⟨rfl, rfl⟩ := getFirst_ok.mp hget
      split at h
      case isFalse =>
        cases h
        exact Or.inl rfl
      case isTrue hlive =>
        obtain ⟨procData, s₂, hload, h⟩ := bind_ok.mp h
        obtain ⟨_, htable⟩ := onSecond_ok.mp hload
        cases procData with
        | none =>
          cases h
          exact Or.inl htable
        | some procData =>
          dsimp only at h
          split at h
          case isTrue =>
            cases h
            exact Or.inl htable
          case isFalse =>
            cases hstate : (s₁.1 pid).state with
            | unused =>
              rw [hstate] at h
              cases h
            | exiting =>
              rw [hstate] at h
              cases h
              exact Or.inl htable
            | active | waitingWaitpid | waitingRead | waitingRead32 | waitingWrite
            | waitingWrite32 =>
              rw [hstate] at h
              obtain ⟨_, s₃, hset, h⟩ := bind_ok.mp h
              have hset := setFirst_ok.mp hset
              subst hset
              obtain ⟨_, s₄, hcall, h⟩ := bind_ok.mp h
              obtain ⟨_, htable'⟩ := onSecond_ok.mp hcall
              cases h
              exact Or.inr ⟨hlive, htable'⟩

theorem sendSignal_steady (pid signalId : ℕ) :
    Steady F P (procManProcessSendSignal F pid signalId) := by
  intro s a s' hs _ hrun
  rcases sendSignal_table hrun with hsame | ⟨hlive, hactive⟩
  · rw [hsame]
    exact progress_refl hs
  · rw [hactive]
    exact progress_entry hs hlive hlive.2 (fun h => nomatch h) (fun _ _ h => nomatch h)

theorem forkContents_progmemFd {parent : ProcManProcessProcData} {child child' : Forked}
    {size : ℕ} {b : Bool} {s s' : φ}
    (h : forkContents F parent child size s = .ok ((b, child'), s')) :
    child'.progmemFd = child.progmemFd := by
  obtain ⟨r, s₁, _, h⟩ := bind_ok.mp h
  split at h
  case isTrue =>
    cases h
    rfl
  case isFalse =>
    obtain ⟨n, s₂, _, h⟩ := bind_ok.mp h
    split at h
    case isTrue =>
      cases h
      rfl
    case isFalse =>
      obtain ⟨copied, s₃, _, h⟩ := bind_ok.mp h
      cases h
      rfl

theorem forkFiles_progmemFd {parentProgmemFd : ℕ} {parent : ProcManProcessProcData}
    {childPid progmemFd procFd : ℕ} {s s' : φ}
    (h : forkFiles F parentProgmemFd parent childPid s = .ok (some (progmemFd, procFd), s')) :
    progmemFd ≠ KernelFsFdInvalid := by
  obtain ⟨r, s₁, hacquire, h⟩ := bind_ok.mp h
  split at h
  case isFalse =>
    obtain ⟨_, s₂, _, h⟩ := bind_ok.mp h
    cases h
  case isTrue htrue =>
    cases h
    obtain ⟨procFd, s₂, _, h⟩ := bind_ok.mp hacquire
    split at h
    case isTrue =>
      cases h
      cases htrue
    case isFalse =>
      obtain ⟨ramFd, s₃, _, h⟩ := bind_ok.mp h
      split at h
      case isTrue =>
        cases h
        cases htrue
      case isFalse =>
        obtain ⟨fd, s₄, _, h⟩ := bind_ok.mp h
        split at h
        case isTrue =>
          cases h
          cases htrue
        case isFalse hvalid =>
          rw [forkContents_progmemFd h]
          exact hvalid

theorem fork_steady (pid : ℕ) (procData : ProcManProcessProcData) :
    Steady F P (procManProcessFork F pid procData) := by
  intro s a s' hs _ hrun
  obtain ⟨table, s₁, hget, hrun⟩ := bind_ok.mp hrun
  obtain ⟨rfl, rfl⟩ := getFirst_ok.mp hget
  split at hrun
  case isTrue =>
    cases hrun
    exact progress_refl hs
  case isFalse hfree =>
    have hfree := findUnusedPid_unused hfree
    have hdead := progress_fresh (F := F) (e := .none) hs hfree (Or.inl rfl)
    obtain ⟨_, s₂, hset, hrun⟩ := bind_ok.mp hrun
    have hset := setFirst_ok.mp hset
    subst hset
    obtain ⟨r, s₃, hfiles, hrun⟩ := bind_ok.mp hrun
    obtain ⟨hfiles, htable⟩ := onSecond_ok.mp hfiles
    cases r with
    | none =>
      cases hrun
      rw [htable]
      exact hdead
    | some fds =>
      obtain ⟨_, s₄, hset, hrun⟩ := bind_ok.mp hrun
      have hset := setFirst_ok.mp hset
      subst hset
      cases hrun
      have hnew := progress_fresh (F := F) hs hfree
        (e := ⟨fds.1, fds.2, .active, 0⟩) (Or.inr ⟨forkFiles_progmemFd hfiles, rfl⟩)
      exact hnew

theorem loadLoop_progmemFd {steps argc left : ℕ} {interpreterPath loopExecFile argv : CBuffer.Buffer}
    {loaded : Loaded} {s s' : φ}
    (h : loadLoop F steps interpreterPath loopExecFile argv argc left s =
      .ok (some loaded, s')) : loaded.progmemFd ≠ KernelFsFdInvalid := by
  induction left generalizing interpreterPath loopExecFile argv argc s with
  | zero => cases h
  | succ left ih =>
    obtain ⟨path, s₁, _, h⟩ := bind_ok.mp h
    obtain ⟨fd, s₂, _, h⟩ := bind_ok.mp h
    split at h
    case isTrue => cases h
    case isFalse hvalid =>
      obtain ⟨magic, s₃, _, h⟩ := bind_ok.mp h
      cases magic with
      | none =>
        obtain ⟨_, s₄, _, h⟩ := bind_ok.mp h
        cases h
      | some magic =>
        dsimp only at h
        split at h
        case isTrue =>
          cases h
          exact hvalid
        case isFalse =>
          split at h
          case isTrue =>
            obtain ⟨interpreter, s₄, _, h⟩ := bind_ok.mp h
            obtain ⟨_, s₅, _, h⟩ := bind_ok.mp h
            cases interpreter with
            | none => cases h
            | some interpreter =>
              obtain ⟨argv', s₆, _, h⟩ := bind_ok.mp h
              exact ih h
          case isFalse =>
            obtain ⟨_, s₄, _, h⟩ := bind_ok.mp h
            cases h

theorem loadProgmemFile_progmemFd {steps argc : ℕ} {scratch : Scratch} {argv : CBuffer.Buffer}
    {envPath envPwd : Option CBuffer.Buffer} {loaded : Loaded} {s s' : φ}
    (h : procManProcessLoadProgmemFile F steps scratch argc argv envPath envPwd s =
      .ok (some loaded, s')) : loaded.progmemFd ≠ KernelFsFdInvalid := by
  obtain ⟨execPath, s₁, _, h⟩ := bind_ok.mp h
  obtain ⟨path, s₂, _, h⟩ := bind_ok.mp h
  split at h
  case isTrue => cases h
  case isFalse =>
    obtain ⟨dir, s₃, _, h⟩ := bind_ok.mp h
    split at h
    case isTrue => cases h
    case isFalse => exact loadLoop_progmemFd h

theorem execPrepare_progmemFd {steps argc : ℕ} {scratch : Scratch} {process : ProcManProcess}
    {procData : ProcManProcessProcData} {argv : CBuffer.Buffer} {plan : ExecPlan} {s s' : φ}
    (h : execPrepare F steps scratch process procData argc argv s = .ok (.ready plan, s')) :
    plan.loaded.progmemFd ≠ KernelFsFdInvalid := by
  obtain ⟨tempPwd, s₁, _, h⟩ := bind_ok.mp h
  cases tempPwd with
  | none => cases h
  | some tempPwd =>
    obtain ⟨tempPath, s₂, _, h⟩ := bind_ok.mp h
    cases tempPath with
    | none => cases h
    | some tempPath =>
      obtain ⟨loaded, s₃, hload, h⟩ := bind_ok.mp h
      cases loaded with
      | none => cases h
      | some loaded =>
        cases h
        exact loadProgmemFile_progmemFd hload

theorem execCommon_steady (steps : ℕ) (scratch : Scratch) (pid : ℕ)
    (procData : ProcManProcessProcData) (argc : ℕ) (argv : CBuffer.Buffer) :
    Steady F (fun t => Live t pid)
      (procManProcessExecCommon F steps scratch pid procData argc argv) := by
  intro s a s' hs hp hrun
  obtain ⟨prepared, s₁, hprepare, hrun⟩ := bind_ok.mp hrun
  obtain ⟨hprepare, htable⟩ := onSecond_ok.mp hprepare
  cases prepared with
  | killed | failed =>
    cases hrun
    rw [htable]
    exact progress_refl hs
  | ready plan =>
    obtain ⟨table, s₂, hget, hrun⟩ := bind_ok.mp hrun
    obtain ⟨rfl, rfl⟩ := getFirst_ok.mp hget
    obtain ⟨_, s₃, _, hrun⟩ := bind_ok.mp hrun
    obtain ⟨_, s₄, hset, hrun⟩ := bind_ok.mp hrun
    have hset := setFirst_ok.mp hset
    subst hset
    obtain ⟨_, htable'⟩ := onSecond_ok.mp hrun
    rw [htable', htable]
    exact progress_entry hs hp (execPrepare_progmemFd hprepare) ((hs pid).mpr hp)
      (fun p timeoutTime hstate => Or.inr hstate)

/-- An exec, once its arguments have been read. -/
theorem execFrom_steady (steps : ℕ) (scratch : Scratch) (pid : ℕ)
    (procData : ProcManProcessProcData) (argc : ℕ)
    (read : ProcManProcess → Run φ Fault (Option CBuffer.Buffer)) :
    Steady F (fun t => Live t pid) (onFiles pid read >>= fun argv =>
      match argv with
      | none => pure (false, procData)
      | some argv => procManProcessExecCommon F steps scratch pid procData argc argv) := by
  intro s a s' hs hp hrun
  obtain ⟨argv, s₁, hread, hrun⟩ := bind_ok.mp hrun
  obtain ⟨_, htable⟩ := onSecond_ok.mp hread
  cases argv with
  | none =>
    cases hrun
    rw [htable]
    exact progress_refl hs
  | some argv =>
    rw [← htable] at hs hp ⊢
    exact execCommon_steady _ _ _ _ _ _ _ _ _ hs hp hrun

theorem steady_pure {α : Type} (a : α) : Steady F P (pure a) := by
  intro s b s' hs _ hrun
  obtain ⟨_, rfl⟩ := pure_ok.mp hrun
  exact progress_refl hs

theorem exec_steady (steps : ℕ) (scratch : Scratch) (pid : ℕ)
    (procData : ProcManProcessProcData) :
    Steady F (fun t => Live t pid) (procManProcessExec F steps scratch pid procData) := by
  unfold procManProcessExec
  by_cases h : (procData.regs 1).toUInt8.toNat < 1
  · simp only [if_pos h]
    exact steady_pure _
  · simp only [if_neg h]
    exact execFrom_steady _ _ _ _ _ _

theorem exec2_steady (steps : ℕ) (scratch : Scratch) (pid : ℕ)
    (procData : ProcManProcessProcData) :
    Steady F (fun t => Live t pid) (procManProcessExec2 F steps scratch pid procData) := by
  unfold procManProcessExec2
  by_cases h : (procData.regs 1).toUInt8.toNat ≥ procData.argc.toNat ∨
      (procData.regs 2).toUInt8.toNat < 1
  · simp only [if_pos h]
    exact steady_pure _
  · simp only [if_neg h]
    exact execFrom_steady _ _ _ _ _ _

end Calls

/-! ### System calls and ticks -/

section Ticks

variable {φ : Type} {F : Files φ} {W : World φ} {P : ProcTable → Prop}

theorem waitPid_progresses (pid : ℕ) (procData : ProcManProcessProcData) :
    Progresses F (fun t => Live t pid) (waitPidSyscall W pid procData) := by
  intro s a s' hs hp hrun
  obtain ⟨table, s₁, hget, hrun⟩ := bind_ok.mp hrun
  obtain ⟨rfl, rfl⟩ := getFirst_ok.mp hget
  split at hrun
  case isFalse =>
    obtain ⟨rfl, rfl⟩ := pure_ok.mp hrun
    exact ⟨[], (List.append_nil _).symm, progress_refl hs⟩
  case isTrue hlive =>
    obtain ⟨timeoutTime, s₂, htime, hrun⟩ := bind_ok.mp hrun
    obtain ⟨htable, hlog⟩ := onFilesOf_quiet _ _ _ _ htime
    obtain ⟨_, s₃, hset, hrun⟩ := bind_ok.mp hrun
    obtain ⟨rfl, rfl⟩ := pure_ok.mp hrun
    have hset := setState_ok hset
    subst hset
    refine ⟨[], by rw [List.append_nil]; exact hlog, ?_⟩
    rw [htable]
    refine progress_entry hs hp hp.2 (fun h => by cases h) (fun p timeoutTime' hstate => ?_)
    cases hstate
    exact Or.inl hlive

theorem transfer_progresses (pid : ℕ) (procData : ProcManProcessProcData)
    (ready : ℕ → Run φ Fault Bool) {waiting : ℕ → ProcManProcessState}
    (run : ProcManProcess → ProcManProcessProcData →
      Run φ Fault (Bool × ProcManProcessProcData)) (hused : ∀ fd, waiting fd ≠ .unused)
    (hwaits : ∀ fd p timeoutTime, waiting fd ≠ .waitingWaitpid p timeoutTime) :
    Progresses F (fun t => Live t pid) (transferSyscall F pid procData ready waiting run) := by
  refine progresses_quiet_bind (onFilesOf_quiet _) (fun globalFd => ?_)
  split
  · exact progresses_pure _
  · refine progresses_quiet_bind (onFilesOf_quiet _) (fun now => ?_)
    split
    · exact progresses_bind_quiet (setState_progresses (hused _) (hwaits _))
        (fun _ => quiet_pure (loggedFiles_step (F := F)) _)
    · exact progresses_quiet (onFilesOf_quiet _)

theorem progresses_always {α : Type} {x : ProcManRun (Logged φ) α}
    (h : Progresses F (fun _ => True) x) : Progresses F P x :=
  fun s a s' hs _ hrun => h s a s' hs trivial hrun

theorem progresses_bind {α β : Type} {x : ProcManRun (Logged φ) α}
    {f : α → ProcManRun (Logged φ) β} (hx : Progresses F P x)
    (hf : ∀ a, Progresses F (fun _ => True) (f a)) : Progresses F P (x >>= f) := by
  intro s b s' hs hp hrun
  obtain ⟨a, s₁, hfirst, hrest⟩ := bind_ok.mp hrun
  obtain ⟨new₁, hnew₁, hprogress₁⟩ := hx _ _ _ hs hp hfirst
  obtain ⟨new₂, hnew₂, hprogress₂⟩ := hf a _ _ _ hprogress₁.sound trivial hrest
  exact ⟨new₁++new₂, by rw [hnew₂, hnew₁, List.append_assoc],
    progress_trans hprogress₁ hprogress₂⟩

theorem getFirst_quiet {ψ : Type} {R : ψ → ψ → Prop} (hrefl : ∀ s, R s s) :
    Quiet R (getFirst : ProcManRun ψ ProcTable) := by
  intro s a s' hrun
  obtain ⟨_, rfl⟩ := getFirst_ok.mp hrun
  exact ⟨rfl, hrefl _⟩

theorem signalAll_progresses (pids : List ℕ) :
    Progresses F (fun _ => True) (signalAll F pids) := by
  induction pids with
  | nil => exact progresses_pure _
  | cons pid rest ih =>
    refine progresses_quiet_bind (getFirst_quiet (fun _ => rfl)) (fun table => ?_)
    split
    · exact progresses_bind (progresses_beside (sendSignal_steady _ _)) (fun _ => ih)
    · exact ih

theorem shutdown_progresses (procData : ProcManProcessProcData) :
    Progresses F P (shutdownSyscall F W procData) := by
  refine progresses_bind (progresses_quiet_bind (onFilesOf_quiet _) (fun starts => ?_))
    (fun _ => progresses_pure _)
  split
  · exact progresses_always (signalAll_progresses _)
  · exact progresses_pure _

theorem killSyscall_progresses (pid : ℕ) (procData : ProcManProcessProcData) :
    Progresses F P (killSyscall F pid procData) := by
  unfold killSyscall
  dsimp only
  split
  · exact progresses_pure _
  · exact progresses_bind (kill_progresses _ _ _) (fun _ => progresses_pure _)

theorem signalSyscall_progresses (procData : ProcManProcessProcData) :
    Progresses F P (signalSyscall F procData) := by
  unfold signalSyscall
  dsimp only
  split
  · exact progresses_pure _
  · exact progresses_bind (progresses_beside (sendSignal_steady _ _)) (fun _ => progresses_pure _)

/-- Every system call of a process that exists. -/
theorem execSyscall_progresses (pid : ℕ) (procData : ProcManProcessProcData)
    (exitStatus : UInt16) :
    Progresses F (fun t => Live t pid) (execSyscall F W pid procData exitStatus) := by
  refine progresses_bind ?_ (fun _ => progresses_pure _)
  cases syscallIdOf (procData.regs 0).toNat with
  | exit =>
    exact progresses_bind (setState_progresses (fun h => nomatch h) (fun _ _ h => nomatch h))
      (fun _ => progresses_pure _)
  | getPid => exact progresses_pure _
  | getArgVN =>
    refine progresses_quiet_bind (onFilesOf_quiet _) (fun addr => ?_)
    cases addr with
    | none => exact progresses_pure _
    | some addr => exact progresses_pure _
  | fork =>
    exact progresses_bind (progresses_beside (fork_steady _ _)) (fun _ => progresses_pure _)
  | exec => exact progresses_beside (exec_steady _ _ _ _)
  | waitPid => exact waitPid_progresses _ _
  | kill => exact killSyscall_progresses _ _
  | signal => exact signalSyscall_progresses _
  | exec2 => exact progresses_beside (exec2_steady _ _ _ _)
  | read | write | read32 | write32 =>
    exact transfer_progresses _ _ _ _ (fun _ h => nomatch h) (fun _ _ _ h => nomatch h)
  | shutdown => exact shutdown_progresses _
  | other => exact progresses_quiet (onFilesOf_quiet _)

theorem execInstruction_progresses (pid : ℕ) (t : Running (Logged φ))
    (instruction : BytecodeInstruction) :
    Progresses F (fun t => Live t pid)
      (procManProcessExecInstruction (loggedFiles F) (execSyscall F W) pid t instruction) := by
  by_cases h : bytecodeInstructionParse instruction = .misc .syscall
  · unfold procManProcessExecInstruction
    rw [h]
    exact progresses_bind (execSyscall_progresses _ _ _) (fun _ => progresses_pure _)
  · exact progresses_quiet (execInstruction_quiet loggedFiles_step pid t h)

/-- The instructions of a tick: a process that is still active still exists. -/
theorem loop_progresses (pid : ℕ) (t : Running (Logged φ)) (left : ℕ) :
    Progresses F (fun t => Live t pid)
      (procManProcessTickLoop (loggedFiles F) (execSyscall F W) pid t left) := by
  induction left generalizing t with
  | zero => exact progresses_pure _
  | succ left ih =>
    refine progresses_quiet_bind (getInstruction_quiet loggedFiles_step pid t) (fun r => ?_)
    cases r.1 with
    | none => exact progresses_pure _
    | some instruction =>
      intro s a s' hs hp hrun
      obtain ⟨r', s₂, hexec, hrun⟩ := bind_ok.mp hrun
      obtain ⟨new₁, hnew₁, hprogress₁⟩ := execInstruction_progresses _ _ _ _ _ _ hs hp hexec
      split at hrun
      case isTrue =>
        obtain ⟨_, rfl⟩ := pure_ok.mp hrun
        exact ⟨new₁, hnew₁, hprogress₁⟩
      case isFalse =>
        obtain ⟨table, s₃, hget, hrun⟩ := bind_ok.mp hrun
        obtain ⟨rfl, rfl⟩ := getFirst_ok.mp hget
        split at hrun
        case isFalse => cases hrun
        case isTrue =>
          obtain ⟨_, s₄, hset, hrun⟩ := bind_ok.mp hrun
          have hset := setFirst_ok.mp hset
          subst hset
          have hcounted : Progress F s₃.1 (Function.update s₃.1 pid
              { s₃.1 pid with instructionCounter := (s₃.1 pid).instructionCounter+1 }) [] := by
            refine progress_same hprogress₁.sound (fun p => ?_)
            by_cases hpid : p = pid
            · rw [hpid, Function.update_self]
              exact ⟨rfl, rfl⟩
            · rw [Function.update_of_ne hpid]
              exact ⟨rfl, rfl⟩
          have hprogress := progress_trans hprogress₁ hcounted
          rw [List.append_nil] at hprogress
          split at hrun
          case isTrue =>
            obtain ⟨_, rfl⟩ := pure_ok.mp hrun
            exact ⟨new₁, hnew₁, hprogress⟩
          case isFalse hactive =>
            have hstate : (s₃.1 pid).state = .active := not_not.mp hactive
            have hlive : Live (Function.update s₃.1 pid
                { s₃.1 pid with instructionCounter := (s₃.1 pid).instructionCounter+1 }) pid := by
              rw [live_update, if_pos rfl]
              exact (hprogress₁.sound pid).mp (by rw [hstate]; exact fun h => nomatch h)
            obtain ⟨new₂, hnew₂, hprogress₂⟩ := ih _ _ _ _ hprogress.sound hlive hrun
            exact ⟨new₁++new₂, by rw [hnew₂, hnew₁, List.append_assoc],
              progress_trans hprogress hprogress₂⟩

theorem tickRun_progresses (pid : ℕ) (procData : ProcManProcessProcData) :
    Progresses F (fun t => Live t pid) (tickRun F W pid procData) := by
  refine progresses_bind (loop_progresses _ _ _) (fun r => ?_)
  split
  · exact progresses_bind (kill_progresses _ _ _) (fun _ => progresses_pure _)
  · refine progresses_quiet_bind (onFilesOf_quiet _) (fun stored => ?_)
    split
    · exact progresses_pure _
    · exact progresses_bind (kill_progresses _ _ _) (fun _ => progresses_pure _)

theorem steady_onFiles {α β : Type} {pid : ℕ} {x : ProcManProcess → Run φ Fault α}
    {f : α → ProcManRun φ β} (hf : ∀ a, Steady F P (f a)) : Steady F P (onFiles pid x >>= f) := by
  intro s b s' hs hp hrun
  obtain ⟨a, s₁, hfirst, hrest⟩ := bind_ok.mp hrun
  obtain ⟨_, htable⟩ := onSecond_ok.mp hfirst
  rw [← htable] at hs hp ⊢
  exact hf a _ _ _ hs hp hrest

theorem loadToRun_steady {pid : ℕ} {run : ProcManProcessProcData → ProcManRun φ TickStart}
    (hrun : ∀ procData, Steady F P (run procData)) : Steady F P (loadToRun F pid run) := by
  refine steady_onFiles (fun procData => ?_)
  cases procData with
  | none => exact steady_pure _
  | some procData => exact hrun procData

/-- A waiting process goes on. -/
theorem activate_steady {α : Type} (pid : ℕ) {f : Unit → ProcManRun φ α}
    (hf : ∀ s a s', f () s = .ok (a, s') → s'.1 = s.1) :
    Steady F (fun t => Live t pid) (setState pid .active >>= f) := by
  intro s a s' hs hp hrun
  obtain ⟨_, s₁, hset, hrun⟩ := bind_ok.mp hrun
  have hset := setState_ok hset
  subst hset
  rw [hf _ _ _ hrun]
  exact progress_state hs hp (fun h => nomatch h) (fun _ _ h => nomatch h)

theorem finishTransfer_steady (pid : ℕ) (ready : Run φ Fault Bool)
    (transfer : ProcManProcess → ProcManProcessProcData →
      Run φ Fault (Bool × ProcManProcessProcData)) :
    Steady F (fun t => Live t pid) (finishTransfer F pid ready transfer) := by
  refine steady_onFiles (fun now => ?_)
  split
  · exact steady_pure _
  · refine loadToRun_steady (fun procData => activate_steady pid (fun s a s' hrun => ?_))
    obtain ⟨r, s₁, hfirst, hrest⟩ := bind_ok.mp hrun
    obtain ⟨_, rfl⟩ := pure_ok.mp hrest
    exact (onSecond_ok.mp hfirst).2

theorem tickStart_steady (pid : ℕ) (state : ProcManProcessState) :
    Steady F (fun t => Live t pid) (tickStart F W pid state) := by
  cases state with
  | unused | exiting => exact steady_pure _
  | active => exact loadToRun_steady (fun procData => steady_pure _)
  | waitingWaitpid p timeoutTime =>
    refine steady_onFiles (fun timedOut => ?_)
    split
    · exact steady_pure _
    · refine loadToRun_steady (fun procData => activate_steady pid (fun s a s' hrun => ?_))
      obtain ⟨_, rfl⟩ := pure_ok.mp hrun
      rfl
  | waitingRead | waitingRead32 | waitingWrite | waitingWrite32 =>
    exact finishTransfer_steady _ _ _

theorem tick_progresses (pid : ℕ) :
    Progresses F (fun _ => True) (procManProcessTick F W pid) := by
  intro s a s' hs _ hrun
  obtain ⟨table, s₁, hget, hrun⟩ := bind_ok.mp hrun
  obtain ⟨rfl, rfl⟩ := getFirst_ok.mp hget
  split at hrun
  case isFalse =>
    obtain ⟨_, rfl⟩ := pure_ok.mp hrun
    exact ⟨[], (List.append_nil _).symm, progress_refl hs⟩
  case isTrue hlive =>
    obtain ⟨start, s₂, hstart, hrun⟩ := bind_ok.mp hrun
    obtain ⟨hstart, hlog⟩ := beside_ok hstart
    have hprogress := tickStart_steady (F := F) _ _ _ _ _ hs hlive hstart
    have hlive₂ : Live s₂.1 pid := by
      rcases hprogress.deaths pid hlive with h | ⟨_, hd, _⟩
      · exact h
      · cases hd
    have hrest : ∃ new, s'.2.1 = s₂.2.1++new ∧ Progress F s₂.1 s'.1 new := by
      cases start with
      | none => exact progresses_pure (P := fun _ => True) () _ _ _ hprogress.sound trivial hrun
      | kill =>
        exact progresses_bind (P := fun _ => True) (kill_progresses _ _ _)
          (fun _ => progresses_pure _) _ _ _ hprogress.sound trivial hrun
      | run procData => exact tickRun_progresses _ _ _ _ _ hprogress.sound hlive₂ hrun
    obtain ⟨new, hnew, hprogress'⟩ := hrest
    exact ⟨new, by rw [hnew, hlog], progress_trans hprogress hprogress'⟩

theorem act_progresses (action : ManagerAction φ) :
    Progresses F (fun _ => True) (act F W action) := by
  cases action with
  | tick pid => exact tick_progresses pid
  | resetCounters =>
    intro s a s' hs _ hrun
    cases hrun
    exact ⟨[], (List.append_nil _).symm, progress_same hs (fun _ => ⟨rfl, rfl⟩)⟩
  | kill pid => exact progresses_bind (kill_progresses _ _ _) (fun _ => progresses_pure _)
  | signal pid signalId => exact progresses_beside (sendSignal_steady _ _)
  | elsewhere f =>
    intro s a s' hs _ hrun
    cases hrun
    exact ⟨[], (List.append_nil _).symm, progress_refl hs⟩

theorem manage_progresses (actions : List (ManagerAction φ)) :
    Progresses F (fun _ => True) (manage F W actions) := by
  induction actions with
  | nil => exact progresses_pure _
  | cons action rest ih => exact progresses_bind (act_progresses action) (fun _ => ih)

end Ticks

/-! ### Exit statuses -/

/-- The records of those who wait are in files of their own. -/
structure RecordsOpen (v : FsView) (t : ProcTable) (pid : ℕ) (path : ℕ → CStr)
    (record : ℕ → ProcManProcessProcData) : Prop where
  opened : ∀ w, Waits t w pid → ∃ e, v.fd (t w).procFd = some e ∧ e.path = path w ∧
    v.file (path w) = some (record w).toBytes
  apart : ∀ w x, Waits t w pid → Waits t x pid → w ≠ x → path w ≠ path x

theorem patch_r0 (d : ProcManProcessProcData) (v : UInt16) :
    patch d.toBytes 0 (wordBytes v) = (d.setReg 0 v).toBytes := by
  rfl

theorem waits_woken {t : ProcTable} {x pid w : ℕ} :
    Waits (Function.update t x { t x with state := .active }) w pid ↔ w ≠ x ∧ Waits t w pid := by
  unfold Waits
  rw [live_update]
  by_cases h : w = x
  · rw [if_pos h, h, Function.update_self]
    simp [ProcManProcessState.waitsFor]
  · rw [if_neg h, Function.update_of_ne h]
    simp [h]

section Statuses

variable {φ : Type} {F : Files φ} {Inv : φ → Prop} {view : φ → FsView} {largest : ℕ}
  (hl : FilesLaw F Inv view largest)

include hl

theorem saveReg_file {process : ProcManProcess} {exitStatus : UInt16} {s s' : φ} {e : OpenFile}
    {d : ProcManProcessProcData} (hi : Inv s) (hfd : (view s).fd process.procFd = some e)
    (hfile : (view s).file e.path = some d.toBytes)
    (h : procManProcessSaveProcDataReg F process 0 exitStatus s = .ok (true, s')) :
    Inv s' ∧ view s' = (view s).setFile e.path (some (d.setReg 0 exitStatus).toBytes) := by
  unfold procManProcessSaveProcDataReg at h
  split at h
  case isTrue => cases h
  case isFalse =>
    obtain ⟨n, s₁, hwrite, h⟩ := bind_ok.mp h
    obtain ⟨hn, rfl⟩ := pure_ok.mp h
    obtain ⟨hi', c', hwritten, hview⟩ := hl.write _ _ _ _ _ _ _ _ hi hfd hfile hwrite
    have hfull : n = (wordBytes exitStatus).length := beq_iff_eq.mp hn.symm
    have hpatch : c' = (d.setReg 0 exitStatus).toBytes :=
      (hwritten.full hfull).1.trans (patch_r0 d exitStatus)
    rw [hpatch] at hview
    exact ⟨hi', hview⟩

/-- When all could be stored, everybody who waited finds the exit status, and
no other file has changed. -/
theorem wakeWaiters_files {pid : ℕ} {exitStatus : UInt16} {path : ℕ → CStr}
    {record : ℕ → ProcManProcessProcData} {l : List ℕ} {s s' : ProcTable × φ} (hi : Inv s.2)
    (hr : RecordsOpen (view s.2) s.1 pid path record)
    (h : wakeWaiters F pid exitStatus l s = .ok (true, s')) :
    (∀ w ∈ l, Waits s.1 w pid → (view s'.2).file (path w) =
        some ((record w).setReg 0 exitStatus).toBytes) ∧
      ∀ q, (∀ w ∈ l, Waits s.1 w pid → q ≠ path w) →
        (view s'.2).file q = (view s.2).file q := by
  induction l generalizing s with
  | nil =>
    obtain ⟨_, rfl⟩ := pure_ok.mp h
    exact ⟨fun _ hw => (nomatch hw), fun _ _ => rfl⟩
  | cons x rest ih =>
    obtain ⟨table, s₁, hget, h⟩ := bind_ok.mp h
    obtain ⟨rfl, rfl⟩ := getFirst_ok.mp hget
    split at h
    case isFalse hx =>
      obtain ⟨hall, hothers⟩ := ih hi hr h
      refine ⟨fun w hw hwaits => ?_, fun q hq => hothers q (fun w hw => hq w (List.mem_cons_of_mem _ hw))⟩
      rcases List.mem_cons.mp hw with rfl | hw
      · exact absurd hwaits hx
      · exact hall w hw hwaits
    case isTrue hx =>
      obtain ⟨saved, s₂, hwake, h⟩ := bind_ok.mp h
      obtain ⟨all, s₃, hrest, h⟩ := bind_ok.mp h
      obtain ⟨hboth, rfl⟩ := pure_ok.mp h
      obtain ⟨rfl, rfl⟩ := Bool.and_eq_true_iff.mp hboth.symm
      obtain ⟨hsave, htable⟩ := wakeWaiter_cases hwake
      rw [if_pos rfl] at htable
      obtain ⟨e, hfd, hpath, hfile⟩ := hr.opened x hx
      obtain ⟨hi₂, hview⟩ := saveReg_file hl hi hfd (hpath ▸ hfile) hsave
      have hr₂ : RecordsOpen (view s₂.2) s₂.1 pid path record := by
        refine ⟨fun w hwaits => ?_, fun w y hw hy => ?_⟩
        · rw [htable, waits_woken] at hwaits
          obtain ⟨e', hfd', hpath', hfile'⟩ := hr.opened w hwaits.2
          refine ⟨e', ?_, hpath', ?_⟩
          · rw [hview, htable, Function.update_of_ne hwaits.1]
            exact hfd'
          · rw [hview, FsView.setFile_file, if_neg, hfile']
            rw [hpath]
            exact hr.apart w x hwaits.2 hx hwaits.1
        · rw [htable, waits_woken] at hw hy
          exact hr.apart w y hw.2 hy.2
      obtain ⟨hall, hothers⟩ := ih hi₂ hr₂ hrest
      refine ⟨fun w hw hwaits => ?_, fun q hq => ?_⟩
      · by_cases hwx : w = x
        · -- nobody else's record is in this file
          have hstays := hothers (path x) (fun y _ hy => by
            rw [htable, waits_woken] at hy
            exact hr.apart x y hx hy.2 (Ne.symm hy.1))
          rw [hwx, hstays, hview, FsView.setFile_file, if_pos hpath.symm]
        · have hmem : w ∈ rest := by
            rcases List.mem_cons.mp hw with h | h
            · exact absurd h hwx
            · exact h
          exact hall w hmem (by rw [htable, waits_woken]; exact ⟨hwx, hwaits⟩)
      · have hstays := hothers q (fun w hw hwaits => by
          rw [htable, waits_woken] at hwaits
          exact hq w (List.mem_cons_of_mem _ hw) hwaits.2)
        rw [hstays, hview, FsView.setFile_file, if_neg]
        rw [hpath]
        exact hq x List.mem_cons_self hx

end Statuses

/-! ### Runs -/

/-- The processes that exist have been started and have not waited yet. -/
def Booted (t : ProcTable) : Prop := ∀ p, t p = .none ∨ (Live t p ∧ (t p).state = .active)

theorem booted_sound {t : ProcTable} (h : Booted t) : Sound t := by
  intro p
  rcases h p with hnone | ⟨hlive, hactive⟩
  · rw [Live, hnone]
    exact ⟨fun hne => absurd rfl hne, fun hlive => absurd rfl hlive.2⟩
  · rw [hactive]
    exact ⟨fun _ => hlive, fun _ => (fun h => nomatch h)⟩

theorem booted_noDeadWait {t : ProcTable} (h : Booted t) : NoDeadWait t := by
  intro w p timeoutTime hstate
  rcases h w with hnone | ⟨_, hactive⟩
  · rw [hnone] at hstate
    cases hstate
  · rw [hactive] at hstate
    cases hstate

/-- Whoever waited for the process has its exit status in r0. -/
def StatusStored {φ : Type} (view : φ → FsView) (d : Death φ) (path : ℕ → CStr)
    (record : ℕ → ProcManProcessProcData) : Prop :=
  ∀ w, w ≠ d.pid → Waits d.before w d.pid → (view d.filesAfter).file (path w) =
    some ((record w).setReg 0 d.exitStatus).toBytes

def childPaths : ProcessPaths :=
  ⟨CStr.lit "/bin/ls", CStr.lit "/tmp/ram2", CStr.lit "/tmp/proc2"⟩

def childData : ProcManProcessProcData := { shellData with ramFd := 6 }

/-- The shell's record before the system call that waits for process 2. -/
def waiterData : ProcManProcessProcData := (shellData.setReg 0 6).setReg 1 2

def familyView : FsView where
  file q := if q = shellPaths.prog then some [193]
    else if q = shellPaths.ram then some [65, 0, 1, 2, 3, 4]
    else if q = shellPaths.proc then some waiterData.toBytes
    else if q = childPaths.prog then some [192]
    else if q = childPaths.ram then some [65, 0, 1, 2, 3, 4]
    else if q = childPaths.proc then some childData.toBytes else none
  fd i := if i = 1 then some ⟨shellPaths.prog, KernelFsFdModeRO, 1⟩
    else if i = 2 then some ⟨shellPaths.proc, KernelFsFdModeRW, 1⟩
    else if i = 3 then some ⟨shellPaths.ram, KernelFsFdModeRW, 1⟩
    else if i = 4 then some ⟨childPaths.prog, KernelFsFdModeRO, 1⟩
    else if i = 5 then some ⟨childPaths.proc, KernelFsFdModeRW, 1⟩
    else if i = 6 then some ⟨childPaths.ram, KernelFsFdModeRW, 1⟩ else none

def familyTable : ProcTable := fun pid =>
  if pid = 1 then ⟨1, 2, .active, 0⟩ else if pid = 2 then ⟨4, 5, .active, 0⟩ else .none

theorem family_booted : Booted familyTable := by
  intro p
  by_cases h1 : p = 1
  · subst h1
    exact Or.inr ⟨by decide, rfl⟩
  · by_cases h2 : p = 2
    · subst h2
      exact Or.inr ⟨by decide, rfl⟩
    · left
      rw [familyTable, if_neg h1, if_neg h2]

/-- The shell has been woken by the one death. -/
def shellWoken (r : Unit × ProcTable × Logged FsView) : Bool :=
  decide ((r.2.1 1).state = .active) && r.2.2.1.length == 1 && r.2.2.1.all (fun d => d.saved) &&
    (r.2.2.2.file shellPaths.proc).map (fun c => (ProcManProcessProcData.ofBytes c).regs 0) ==
      some ProcManExitStatusKilled

end ArduinoOS.Procman
