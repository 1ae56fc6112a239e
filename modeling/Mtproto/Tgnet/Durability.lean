import Mtproto.Tgnet.Config

/-!
# What a restart finds

A directory holds a payload when its backup, or the file where there is no backup, spells it.  Every
call of `writeConfig` keeps what the directory holds until the new file is complete; from then on
the backup must be gone, which is where `leavesBackup` goes wrong.
-/

namespace Mtproto.Tgnet

open Bytes Lib Lib.Interruptible

/-! ## Reading back -/

theorem readConfig_file {d : Directory} {p : Payload} (hp : p.bytes ≠ [])
    (hd : d.config = some p.file) : readConfig d = some p.bytes := by
  have hpos : 0 < p.bytes.length := List.length_pos_iff.2 hp
  have hlt := p.length_lt
  have hsize : leNat (p.file.take 4) = p.bytes.length := by
    rw [Payload.file, List.take_left' (length_toLE 4 _), leNat_toLE_of_lt (by omega)]
  have hlen : p.file.length = 4 + p.bytes.length := by
    rw [Payload.file, List.length_append, length_toLE]
  have hdata : p.file.drop 4 = p.bytes := List.drop_left' (length_toLE 4 _)
  have hcast : toInt32 p.bytes.length < (4 + p.bytes.length : ℕ) := by
    unfold toInt32
    split <;> omega
  simp only [readConfig, hd, hsize, hlen, hdata, List.take_length]
  rw [if_pos ⟨by omega, hpos, hcast⟩, if_pos trivial]

/-- The directory holds a payload of `G`: what a restart puts in place spells one. -/
def Directory.Holds (G : Payload → Prop) (d : Directory) : Prop :=
  ∃ q, G q ∧ q.bytes ≠ [] ∧ (openConfig d).config = some q.file

section Holds

variable {G H : Payload → Prop} {d : Directory}

theorem Directory.Holds.mono (hd : d.Holds G) (h : ∀ q, G q → H q) : d.Holds H := by
  obtain ⟨q, hq, hne, hfile⟩ := hd
  exact ⟨q, h q hq, hne, hfile⟩

/-- What is held under the backup's name does not depend on the file. -/
theorem Directory.Holds.of_backup {e : Directory} (hd : d.Holds G) (hb : d.backup ≠ none)
    (he : e.backup = d.backup) : e.Holds G := by
  obtain ⟨q, hq, hne, hfile⟩ := hd
  obtain ⟨f, hf⟩ := Option.ne_none_iff_exists'.1 hb
  refine ⟨q, hq, hne, ?_⟩
  simp only [openConfig, hf] at hfile
  simp only [openConfig, he, hf, hfile]

/-- The file that is held may become the backup. -/
theorem Directory.Holds.rename {e : Directory} (hd : d.Holds G) (hb : d.backup = none)
    (he : e.backup = d.config) : e.Holds G := by
  obtain ⟨q, hq, hne, hfile⟩ := hd
  refine ⟨q, hq, hne, ?_⟩
  simp only [openConfig, hb] at hfile
  simp only [openConfig, he, hfile]

theorem Directory.holds_new {p : Payload} (hp : p.bytes ≠ []) (hG : G p) (hb : d.backup = none)
    (hc : d.config = some p.file) : d.Holds G :=
  ⟨p, hG, hp, by simp only [openConfig, hb, hc]⟩

theorem Directory.Holds.config_ne_none (hd : d.Holds G) (hb : d.backup = none) :
    d.config ≠ none := by
  obtain ⟨q, -, -, hfile⟩ := hd
  simp only [openConfig, hb] at hfile
  simp [hfile]

end Holds

/-! ## One call -/

section Operations

variable {sys : System} {op : FileOp} {P : Directory → Prop} {Q : Bool → Directory → Prop}
  {C : Directory → Prop}

theorem triple_attempt {effect : Directory → Directory} (hcrash : ∀ d, P d → C d)
    (hfail : sys.outcome op = .failed → ∀ d, P d → Q false d)
    (hok : sys.outcome op = .succeeded → ∀ d, P d → Q true (effect d)) :
    Triple P (attempt sys op effect) Q C := by
  unfold attempt
  cases hout : sys.outcome op with
  | crash => exact triple_crash hcrash
  | failed => exact triple_pure false (hfail hout)
  | succeeded => exact (triple_modify (hok hout)).bind fun _ => triple_pure true fun _ h => h

/-- The open file has any contents; the backup is not touched. -/
theorem triple_writing {b : Option (List UInt8)} {data : List UInt8} :
    Triple (fun d : Directory => d.backup = b) (writing sys op data)
      (fun ok d => (ok = true → sys.outcome op = .succeeded) ∧ d.backup = b) fun d =>
        d.backup = b := by
  unfold writing
  apply Triple.bind (Q := fun ok d => (ok = true → sys.outcome op = .succeeded) ∧ d.backup = b)
  · exact triple_attempt (fun _ h => h) (fun _ _ h => ⟨by simp, h⟩) fun hok _ h => ⟨fun _ => hok, h⟩
  · intro ok
    apply Triple.bind (Q := fun _ d => (ok = true → sys.outcome op = .succeeded) ∧ d.backup = b)
    · exact triple_modify fun _ h => h
    · exact fun _ => triple_pure ok fun _ h => h

/-- The same for an operation that is left out when an earlier one failed. -/
theorem triple_writingIf {b : Option (List UInt8)} {data : List UInt8} {c skipped : Bool} :
    Triple (fun d : Directory => d.backup = b) (writingIf c sys op data skipped)
      (fun ok d => (c = true → ok = true → sys.outcome op = .succeeded) ∧ d.backup = b)
      fun d => d.backup = b := by
  unfold writingIf
  apply triple_ite
  · exact fun _ => triple_writing.weaken (fun _ h => h) (fun _ _ h => ⟨fun _ => h.1, h.2⟩)
      fun _ h => h
  · exact fun hc => triple_pure skipped fun _ h => ⟨fun hc' => absurd hc' hc, h⟩

/-- The operations of `writeFile`. -/
def FileOp.writes : List FileOp :=
  [.fwriteSize, .fwriteData, .fflush, .fileno, .fsync, .fclose]

/-- Without an error every operation succeeded and the file is complete. -/
theorem triple_writeFile {b : Option (List UInt8)} {payload : Payload} :
    Triple (fun d : Directory => d.backup = b) (writeFile sys payload)
      (fun ok d => d.backup = b ∧ (ok = true → d.config = some payload.file ∧
        ∀ op ∈ FileOp.writes, sys.outcome op = .succeeded))
      fun d => d.backup = b := by
  unfold writeFile
  apply triple_writing.bind
  intro size
  apply (triple_writingIf.frame _).bind
  intro bytes
  apply ((triple_writing.frame _).frame _).bind
  intro flushed
  apply (((triple_writing.frame _).frame _).frame _).bind
  intro fd
  apply ((((triple_writingIf.frame _).frame _).frame _).frame _).bind
  intro synced
  apply (((((triple_writing.frame _).frame _).frame _).frame _).frame _).bind
  intro closed
  apply triple_ite
  · intro hall
    simp only [Bool.and_eq_true] at hall
    obtain ⟨⟨⟨⟨⟨hsize, hbytes⟩, hflushed⟩, hfd⟩, hsynced⟩, hclosed⟩ := hall
    refine (triple_modify (Q := fun _ d => d.backup = b ∧ d.config = some payload.file ∧
      ∀ op ∈ FileOp.writes, sys.outcome op = .succeeded) ?_).bind fun _ =>
      triple_pure true fun _ h => ⟨h.1, fun _ => h.2⟩
    rintro d ⟨h₁, h₂, h₃, h₄, h₅, h₆, hb⟩
    refine ⟨hb, rfl, ?_⟩
    simp only [FileOp.writes, List.forall_mem_cons]
    exact ⟨h₁ hsize, h₂ hsize hbytes, h₃ hflushed, h₄ hfd, h₅ hfd hsynced, h₆ hclosed, by simp⟩
  · intro _
    apply triple_pure false
    rintro d ⟨-, -, -, -, -, -, hb⟩
    exact ⟨hb, by simp⟩

theorem System.completes_of_writes (hopen : sys.outcome .fopen = .succeeded)
    (hwrites : ∀ op ∈ FileOp.writes, sys.outcome op = .succeeded) : sys.completes = true := by
  simp only [FileOp.writes, List.forall_mem_cons] at hwrites
  simp [System.completes, hopen, hwrites]

/-- Until the new file is complete the backup is not touched. -/
theorem triple_replaceFile (sys : System) (payload : Payload) (hasBackupFile : Bool)
    {b : Option (List UInt8)} :
    Triple (fun d : Directory => d.backup = b) (replaceFile sys payload hasBackupFile)
      (fun ok d => (ok = true → sys.completes = true ∧ d.config = some payload.file ∧
          (hasBackupFile = true → sys.outcome .removeBackup ≠ .failed → d.backup = none) ∧
          (hasBackupFile = false → d.backup = b)) ∧
        (ok = false → d.backup = b))
      fun d => d.backup = b := by
  unfold replaceFile
  apply Triple.bind (Q := fun ok d => (ok = true → sys.outcome .fopen = .succeeded) ∧ d.backup = b)
  · exact triple_attempt (fun _ h => h) (fun _ _ h => ⟨by simp, h⟩) fun hok _ h => ⟨fun _ => hok, h⟩
  intro opened
  apply triple_ite
  · intro hopened
    apply (triple_writeFile.frame _).bind
    intro written
    apply triple_ite
    · intro hwritten
      apply triple_ite
      · intro hbackup
        apply Triple.bind (Q := fun _ d => sys.completes = true ∧ d.config = some payload.file ∧
          (sys.outcome .removeBackup ≠ .failed → d.backup = none))
        · apply triple_attempt
          · rintro d ⟨-, hb, -⟩
            exact hb
          · rintro hfailed d ⟨hopen, -, hall⟩
            obtain ⟨hfile, hwrites⟩ := hall hwritten
            exact ⟨System.completes_of_writes (hopen hopened) hwrites, hfile, fun h =>
              absurd hfailed h⟩
          · rintro - d ⟨hopen, -, hall⟩
            obtain ⟨hfile, hwrites⟩ := hall hwritten
            exact ⟨System.completes_of_writes (hopen hopened) hwrites, hfile, fun _ => rfl⟩
        · intro _
          apply triple_pure true
          rintro d ⟨hcomplete, hfile, hremoved⟩
          exact ⟨fun _ => ⟨hcomplete, hfile, fun _ => hremoved, by simp [hbackup]⟩, by simp⟩
      · intro hbackup
        apply triple_pure true
        rintro d ⟨hopen, hb, hall⟩
        obtain ⟨hfile, hwrites⟩ := hall hwritten
        exact ⟨fun _ => ⟨System.completes_of_writes (hopen hopened) hwrites, hfile,
          fun h => absurd h hbackup, fun _ => hb⟩, by simp⟩
    · intro _
      apply Triple.bind (Q := fun _ d => d.backup = b)
      · exact triple_attempt (fun _ h => h.2.1) (fun _ _ h => h.2.1) fun _ _ h => h.2.1
      · exact fun _ => triple_pure false fun _ h => ⟨by simp, fun _ => h⟩
  · exact fun _ => triple_pure false fun _ h => ⟨by simp, fun _ => h.2⟩

/-- After `moveAside`: what was held is held under the backup's name from then on, and unless the
call leaves a backup, the one it made is the only one. -/
def MovedAside (sys : System) (d₀ : Directory) : Option Bool → Directory → Prop
  | none, d => d = d₀
  | some hasBackupFile, d =>
      (∀ (G : Payload → Prop) (e : Directory), e.backup = d.backup → d₀.Holds G → e.Holds G) ∧
      (sys.completes = true → leavesBackup d₀ sys = false →
        if hasBackupFile then sys.outcome .removeBackup ≠ .failed else d.backup = none)

theorem triple_moveAside {d₀ : Directory} :
    Triple (fun d => d = d₀) (moveAside sys) (MovedAside sys d₀) fun d => d = d₀ := by
  rintro ⟨_ | file, _ | backup⟩ rfl
  · exact ⟨fun _ _ _ hd => absurd rfl (hd.config_ne_none rfl), fun _ _ => rfl⟩
  · refine ⟨fun _ _ he hd => hd.of_backup (by simp) he, ?_⟩
    intro hcomplete hleaves
    simp [leavesBackup, hcomplete] at hleaves
  · unfold moveAside attempt
    cases hout : sys.outcome .rename with
    | crash => exact rfl
    | failed => exact rfl
    | succeeded =>
        refine ⟨fun _ _ he hd => hd.rename rfl he, ?_⟩
        intro hcomplete hleaves
        simpa [leavesBackup, hcomplete, hout] using hleaves
  · have hleaves : sys.outcome .removeOld ≠ .crash → sys.completes = true →
        leavesBackup ⟨some file, some backup⟩ sys ≠ false := by
      intro hout hcomplete
      simp [leavesBackup, hcomplete, hout]
    unfold moveAside attempt
    cases hout : sys.outcome .removeOld with
    | crash => exact rfl
    | failed =>
        exact ⟨fun _ _ he hd => hd.of_backup (by simp) he,
          fun hcomplete h => absurd h (hleaves (by simp [hout]) hcomplete)⟩
    | succeeded =>
        exact ⟨fun _ _ he hd => hd.of_backup (by simp) he,
          fun hcomplete h => absurd h (hleaves (by simp [hout]) hcomplete)⟩

/-- A call of `writeConfig`: without an error and unless it leaves a backup, the new file is alone;
else what was held is still held. -/
theorem triple_writeConfig (sys : System) (payload : Payload) {d₀ : Directory} :
    Triple (fun d => d = d₀) (writeConfig sys payload)
      (fun ok d => (ok = true → leavesBackup d₀ sys = false → d = ⟨some payload.file, none⟩) ∧
        (ok = false → ∀ G, d₀.Holds G → d.Holds G))
      fun d => ∀ G, d₀.Holds G → d.Holds G := by
  unfold writeConfig
  apply Triple.bind (Q := MovedAside sys d₀)
  · exact triple_moveAside.weaken (fun _ h => h) (fun _ _ h => h) fun _ h _ hd => h ▸ hd
  intro moved
  cases moved with
  | none => exact triple_pure false fun _ h => ⟨by simp, fun _ _ hd => h ▸ hd⟩
  | some hasBackupFile =>
      rintro d ⟨hheld, honly⟩
      have hends := triple_replaceFile sys payload hasBackupFile d rfl
      apply hends.mono
      · rintro ok e ⟨hok, hfailed⟩
        refine ⟨?_, fun h G hd => hheld G e (hfailed h) hd⟩
        intro h hleaves
        obtain ⟨hcomplete, hfile, hremoved, hkept⟩ := hok h
        have honly := honly hcomplete hleaves
        have hbackup : e.backup = none := by
          cases hasBackupFile with
          | true => exact hremoved rfl honly
          | false => exact (hkept rfl).trans honly
        obtain ⟨config, backup⟩ := e
        simp only at hfile hbackup
        rw [hfile, hbackup]
      · exact fun e he G hd => hheld G e he hd

end Operations

/-! ## Runs -/

/-- Once a call ended without an error, the directory holds its payload or that of a later call
which a crash cut short. -/
def Store.Held (s : Store) : Prop :=
  ∀ p, s.saved = some p → s.directory.Holds fun q => q = p ∨ q ∈ s.interrupted

theorem Store.Held.durable {s : Store} (hs : s.Held) : s.Durable := by
  intro p hp
  obtain ⟨q, hq, hne, hfile⟩ := hs p hp
  exact ⟨q, readConfig_file hne hfile, hq⟩

theorem openConfig_openConfig (d : Directory) : openConfig (openConfig d) = openConfig d := by
  rcases d with ⟨config, _ | backup⟩ <;> rfl

theorem Store.Held.wrote {s : Store} {payload : Payload} {sys : System} (hs : s.Held)
    (hpayload : payload.bytes ≠ []) (hleaves : leavesBackup s.directory sys = false) :
    (s.wrote payload (writeConfig sys payload s.directory)).Held := by
  have hends := triple_writeConfig sys payload s.directory rfl
  rcases hrun : writeConfig sys payload s.directory with ⟨_ | _ | _, d⟩ <;> rw [hrun] at hends
  · intro p hp
    have hheld := hends _ (hs p hp)
    exact hheld.mono fun q hq => hq.imp_right (List.mem_cons_of_mem payload)
  · intro p hp
    exact hends.2 rfl _ (hs p hp)
  · intro p hp
    cases Option.some.inj hp
    obtain rfl := hends.1 rfl hleaves
    exact Directory.holds_new hpayload (.inl rfl) rfl rfl

theorem Store.Held.step {s t : Store} {event : StoreEvent} (hs : s.Held) (hsafe : s.Safe event)
    (hrun : storeStep event s = some ((), t)) : t.Held := by
  cases event with
  | write payload sys =>
      simp only [storeStep, Program.read_bind] at hrun
      split at hrun
      · simp [Program.fault] at hrun
      · rw [Program.update_run hrun]
        exact hs.wrote hsafe.1 hsafe.2
  | restart =>
      simp only [storeStep] at hrun
      rw [Program.update_run hrun]
      intro p hp
      obtain ⟨q, hq, hne, hfile⟩ := hs p hp
      exact ⟨q, hq, hne, by rw [openConfig_openConfig]; exact hfile⟩

/-- As long as no call completes its file beside a backup, a restart never loses what was
written. -/
theorem durable_of_reaches {s : Store} (hs : Program.Reaches storeStep Store.Fresh Store.Safe s) :
    s.Durable := by
  have hheld : s.Held := by
    refine hs.invariant ?_ fun _ _ _ hs hsafe hrun => Store.Held.step hs hsafe hrun
    intro s hfresh p hp
    rw [hfresh.2.1] at hp
    exact absurd hp (by simp)
  exact hheld.durable

/-- A system on which every operation succeeds, but for those of a list. -/
def System.failing (ops : List FileOp) : System where
  outcome op := if op ∈ ops then .failed else .succeeded
  onDisk _ := 0

/-- The payload of one byte. -/
def Payload.byte (b : UInt8) : Payload := ⟨[b], by simp⟩

/-- The empty directory, and a first call without an error. -/
def firstCall : Store :=
  (⟨⟨none, none⟩, false, none, []⟩ : Store).wrote (.byte 1)
    (writeConfig (.failing []) (.byte 1) ⟨none, none⟩)

theorem reaches_firstCall {allowed : Store → StoreEvent → Prop}
    (hallowed : allowed ⟨⟨none, none⟩, false, none, []⟩ (.write (.byte 1) (.failing []))) :
    Program.Reaches storeStep Store.Fresh allowed firstCall :=
  .step (.start ⟨rfl, rfl, rfl⟩) hallowed rfl

/-- A call that fails between two that succeed, with a restart after it. -/
def failedBetween : List StoreEvent :=
  [.write (.byte 1) (.failing []), .write (.byte 2) (.failing [.fwriteData]), .restart,
    .write (.byte 3) (.failing [])]

/-- The restart puts the first payload back, and the third one replaces it. -/
theorem durable_failedBetween :
    ∃ s, Program.each storeStep failedBetween ⟨⟨none, none⟩, false, none, []⟩ = some ((), s) ∧
      s.saved = some (.byte 3) ∧ s.Durable := by
  have hfirst : Program.Reaches storeStep Store.Fresh Store.Safe firstCall :=
    reaches_firstCall ⟨by simp [Payload.byte], by decide⟩
  have hsafe : firstCall.Safe (.write (.byte 2) (.failing [.fwriteData])) :=
    ⟨by simp [Payload.byte], by decide⟩
  have hsecond := hfirst.step hsafe rfl
  have hrestart := hsecond.step (show Store.Safe _ .restart from trivial) rfl
  have hthird := hrestart.step
    (show Store.Safe _ (.write (.byte 3) (.failing [])) from ⟨by simp [Payload.byte], by decide⟩)
      rfl
  exact ⟨_, rfl, rfl, durable_of_reaches hthird⟩

/-- The second call fails and leaves the first payload as the backup; the third one is written
beside it, and a restart puts the first payload back. -/
theorem not_durable_of_failure :
    ¬ ∀ s, Program.Reaches storeStep Store.Fresh (fun _ _ => True) s → s.Durable := by
  intro hdurable
  have hfirst : Program.Reaches storeStep Store.Fresh (fun _ _ => True) firstCall :=
    reaches_firstCall trivial
  have hsecond := hfirst.step (i := .write (.byte 2) (.failing [.fwriteData])) trivial rfl
  have hthird := hsecond.step (i := .write (.byte 3) (.failing [])) trivial rfl
  obtain ⟨q, hread, hq⟩ := hdurable _ hthird (.byte 3) rfl
  have hold : some (Payload.byte 1).bytes = some q.bytes := hread
  rcases hq with rfl | hq
  · simp [Payload.byte] at hold
  · cases hq

end Mtproto.Tgnet
