import Mathlib.Data.List.ReduceOption
import SnmpAgent.Lib.Disk

/-!
# Persistence of `snmpEngineBoots` (`usm/boots.rs`)

`initialiseEngineBoots` takes the counter from a store, raises it and saves it. Each start-up brings
a store of its own, and what lasts from one start-up to the next is the medium that the stores work
on. `EngineBootsStore.Faithful` says of a store what the counter rests on, and the boots values of
start-ups with faithful stores increase (`startUps_increasing`). `FileEngineBootsStore` is faithful
under every fault of its disk.
-/

namespace SnmpAgent
open Rust

/-! ## The counter -/

/-- `EngineBoots::CEILING`. -/
def maxEngineBoots : UInt32 := 0x7FFFFFFF

def maxEngineIdLen : Nat := 32

structure StoredBootsState where
  engineId : Bytes
  boots : UInt32
  deriving DecidableEq

/-- The trait, for stores that work on a medium `σ` and fail with an `ε`. -/
structure EngineBootsStore (σ ε : Type) where
  load : Act σ ε (Option StoredBootsState)
  save : (engineId : Bytes) → (boots : UInt32) → Act σ ε Unit

inductive InitBootsError (ε : Type) where
  | bootsAtCeiling
  | store (e : ε)
  deriving DecidableEq

section
variable {σ ε : Type}

def initialiseEngineBoots (store : EngineBootsStore σ ε) (engineId : Bytes) :
    Act σ (InitBootsError ε) UInt32 := do
  let stored ← store.load.mapErr .store
  match stored with
  | none =>
    (store.save engineId 1).mapErr .store
    return 1
  | some state =>
    if state.engineId = engineId then
      if state.boots ≥ maxEngineBoots then .fail .bootsAtCeiling
      else
        let newBoots := state.boots + 1
        (store.save engineId newBoots).mapErr .store
        return newBoots
    else
      (store.save engineId 1).mapErr .store
      return 1

/-! ## Restarts -/

/-- One start-up: the boots value if it succeeds, and the medium behind it. -/
def startUp (engineId : Bytes) (store : EngineBootsStore σ ε) (s : σ) : Option UInt32 × σ :=
  match (initialiseEngineBoots store engineId).run s with
  | .ok (boots, s) => (some boots, s)
  | .err (_, s) => (none, s)
  | .panic => (none, s)

def startUps (engineId : Bytes) : List (EngineBootsStore σ ε) → σ → List (Option UInt32) × σ
  | [], s => ([], s)
  | store :: stores, s =>
    let (boots, s) := startUp engineId store s
    let (later, s) := startUps engineId stores s
    (boots :: later, s)

/-- What a medium holds for the stores that work on it. -/
inductive Contents where
  | unreadable
  | holds (state : Option StoredBootsState)

/-- A store reads what its medium holds. A save that fails may still take effect, and it may leave
the medium unreadable. -/
structure EngineBootsStore.Faithful (store : EngineBootsStore σ ε) (engineId : Bytes)
    (contents : σ → Contents) : Prop where
  load_ok : ∀ {s state s'}, store.load.run s = .ok (state, s') →
    contents s = .holds state ∧ contents s' = contents s
  load_err : ∀ {s e s'}, store.load.run s = .err (e, s') → contents s' = contents s
  save_ok : ∀ {boots s s'}, (store.save engineId boots).run s = .ok ((), s') →
    contents s' = .holds (some ⟨engineId, boots⟩)
  save_err : ∀ {boots s e s'}, (store.save engineId boots).run s = .err (e, s') →
    contents s' = contents s ∨ contents s' = .holds (some ⟨engineId, boots⟩) ∨
      contents s' = .unreadable

/-- The boots value of a start-up that finds this state, if there is one below the ceiling. -/
def nextBoots (engineId : Bytes) : Option StoredBootsState → Option UInt32
  | none => some 1
  | some state =>
    if state.engineId = engineId then
      if state.boots ≥ maxEngineBoots then none else some (state.boots + 1)
    else some 1

/-- Save the next boots value. -/
def saveNext (store : EngineBootsStore σ ε) (engineId : Bytes) :
    Option UInt32 → Act σ (InitBootsError ε) UInt32
  | some boots => do
    (store.save engineId boots).mapErr .store
    return boots
  | none => .fail .bootsAtCeiling

theorem initialiseEngineBoots_eq (store : EngineBootsStore σ ε) (engineId : Bytes) :
    initialiseEngineBoots store engineId =
      store.load.mapErr .store >>= fun stored =>
        saveNext store engineId (nextBoots engineId stored) := by
  rw [initialiseEngineBoots]
  congr 1
  funext stored
  rcases stored with _ | state
  · rfl
  · simp only [nextBoots]
    split
    · split <;> rfl
    · rfl

/-- A counter of the same engine is raised. -/
theorem nextBoots_self {engineId : Bytes} {boots boots' : UInt32}
    (h : nextBoots engineId (some ⟨engineId, boots⟩) = some boots') :
    boots'.toNat = boots.toNat + 1 ∧ boots'.toNat ≤ maxEngineBoots.toNat := by
  rw [nextBoots, if_pos rfl] at h
  split at h
  · cases h
  · rename_i hlt
    cases h
    change ¬ maxEngineBoots ≤ boots at hlt
    rw [UInt32.le_iff_toNat_le, Nat.not_le] at hlt
    have hmax : maxEngineBoots.toNat = 0x7FFFFFFF := rfl
    have hadd : (boots + 1).toNat = boots.toNat + 1 := by
      rw [UInt32.toNat_add, Nat.mod_eq_of_lt] <;> simp only [UInt32.reduceToNat]
      omega
    exact ⟨hadd, hadd.trans_le hlt⟩

theorem nextBoots_ceiling (engineId : Bytes) :
    nextBoots engineId (some ⟨engineId, maxEngineBoots⟩) = none := by
  rw [nextBoots, if_pos rfl]
  exact if_pos (UInt32.le_refl maxEngineBoots)

theorem nextBoots_range {engineId : Bytes} {state : Option StoredBootsState} {boots : UInt32}
    (h : nextBoots engineId state = some boots) :
    1 ≤ boots.toNat ∧ boots.toNat ≤ maxEngineBoots.toNat := by
  rcases state with _ | ⟨id, stored⟩
  · cases h
    decide
  · by_cases hid : id = engineId
    · subst hid
      obtain ⟨hnext, hle⟩ := nextBoots_self h
      exact ⟨by omega, hle⟩
    · rw [nextBoots, if_neg hid] at h
      cases h
      decide

/-- What a successful start-up returns is within the range of the counter. -/
theorem initialiseEngineBoots_range {engineId : Bytes} {store : EngineBootsStore σ ε} {s s' : σ}
    {boots : UInt32} (h : (initialiseEngineBoots store engineId).run s = .ok (boots, s')) :
    1 ≤ boots.toNat ∧ boots.toNat ≤ maxEngineBoots.toNat := by
  rw [initialiseEngineBoots_eq, Act.bind_eq_ok] at h
  obtain ⟨state, s₁, -, h⟩ := h
  cases hnext : nextBoots engineId state with
  | none =>
    rw [hnext] at h
    cases h
  | some boots' =>
    rw [hnext, saveNext, Act.bind_eq_ok] at h
    obtain ⟨-, s₂, -, h⟩ := h
    obtain ⟨rfl, -⟩ := Act.pure_eq_ok.mp h
    exact nextBoots_range hnext

section
variable {engineId : Bytes} {store : EngineBootsStore σ ε} {contents : σ → Contents} {s s' : σ}
  {boots? : Option UInt32}

/-- A start-up leaves the medium as it was, saves the next boots value, or breaks the medium. -/
theorem startUp_cases (F : store.Faithful engineId contents)
    (h : startUp engineId store s = (boots?, s')) :
    boots? = none ∧ contents s' = contents s ∨
    ∃ state boots, contents s = .holds state ∧ nextBoots engineId state = some boots ∧
      (boots? ∈ [none, some boots] ∧ contents s' = .holds (some ⟨engineId, boots⟩) ∨
        boots? = none ∧ contents s' = .unreadable) := by
  rw [startUp, initialiseEngineBoots_eq, StateT.run_bind, Act.run_mapErr] at h
  cases hload : store.load.run s with
  | panic =>
    rw [hload] at h
    cases h
    exact .inl ⟨rfl, rfl⟩
  | err e =>
    rw [hload] at h
    cases h
    exact .inl ⟨rfl, F.load_err hload⟩
  | ok r =>
    obtain ⟨state, s₁⟩ := r
    obtain ⟨hs, hs₁⟩ := F.load_ok hload
    rw [hload, Res.mapErr_ok, Res.ok_bind] at h
    cases hnext : nextBoots engineId state with
    | none =>
      simp only [hnext, saveNext] at h
      cases h
      exact .inl ⟨rfl, hs₁⟩
    | some boots =>
      simp only [hnext, saveNext, StateT.run_bind, Act.run_mapErr] at h
      cases hsave : (store.save engineId boots).run s₁ with
      | panic =>
        rw [hsave] at h
        cases h
        exact .inl ⟨rfl, rfl⟩
      | ok r =>
        obtain ⟨_, s₂⟩ := r
        rw [hsave] at h
        cases h
        exact .inr ⟨state, boots, hs, hnext, .inl ⟨by simp, F.save_ok hsave⟩⟩
      | err e =>
        obtain ⟨e, s₂⟩ := e
        rw [hsave] at h
        cases h
        rcases F.save_err hsave with hs₂ | hs₂ | hs₂
        · exact .inl ⟨rfl, hs₂.trans hs₁⟩
        · exact .inr ⟨state, boots, hs, hnext, .inl ⟨by simp, hs₂⟩⟩
        · exact .inr ⟨state, boots, hs, hnext, .inr ⟨rfl, hs₂⟩⟩

/-- The counter stands at `n` or above, unless it cannot be read. -/
def Since (contents : σ → Contents) (engineId : Bytes) (n : Nat) (s : σ) : Prop :=
  n = 0 ∨ contents s = .unreadable ∨
    ∃ boots, contents s = .holds (some ⟨engineId, boots⟩) ∧ n ≤ boots.toNat

/-- One start-up returns a value above all earlier ones, and keeps later ones above it. -/
theorem startUp_since (F : store.Faithful engineId contents) {n : Nat}
    (H : Since contents engineId n s) (h : startUp engineId store s = (boots?, s')) :
    (∀ boots ∈ boots?, n < boots.toNat ∧ boots.toNat ≤ maxEngineBoots.toNat ∧
      Since contents engineId boots.toNat s') ∧ Since contents engineId n s' := by
  rcases startUp_cases F h with ⟨rfl, hs'⟩ | ⟨state, boots, hs, hnext, hcases⟩
  · exact ⟨nofun, by simpa [Since, hs'] using H⟩
  obtain ⟨hpos, hle⟩ := nextBoots_range hnext
  have hlt : n < boots.toNat := by
    rcases H with rfl | H | ⟨stored, H, hn⟩
    · exact hpos
    · cases hs.symm.trans H
    · cases hs.symm.trans H
      have := (nextBoots_self hnext).1
      omega
  rcases hcases with ⟨hr, hs'⟩ | ⟨rfl, hs'⟩
  · refine ⟨fun b hb => ?_, .inr (.inr ⟨boots, hs', hlt.le⟩)⟩
    obtain rfl : b = boots := by
      rcases List.mem_pair.mp hr with rfl | rfl
      · cases hb
      · exact (Option.some.inj hb).symm
    exact ⟨hlt, hle, .inr (.inr ⟨b, hs', le_refl _⟩)⟩
  · exact ⟨nofun, .inr (.inl hs')⟩

/-- At the ceiling, or with a medium that cannot be read, no start-up succeeds again. -/
def Exhausted (contents : σ → Contents) (engineId : Bytes) (s : σ) : Prop :=
  contents s = .unreadable ∨ contents s = .holds (some ⟨engineId, maxEngineBoots⟩)

theorem startUp_exhausted (F : store.Faithful engineId contents) (H : Exhausted contents engineId s)
    (h : startUp engineId store s = (boots?, s')) : boots? = none ∧ contents s' = contents s := by
  rcases startUp_cases F h with h | ⟨state, boots, hs, hnext, -⟩
  · exact h
  · rcases H with H | H
    · cases hs.symm.trans H
    · cases hs.symm.trans H
      rw [nextBoots_ceiling] at hnext
      cases hnext

variable {stores : List (EngineBootsStore σ ε)}

/-- The boots values of a history of start-ups increase. -/
theorem startUps_increasing (hF : ∀ store ∈ stores, store.Faithful engineId contents) {n : Nat}
    (H : Since contents engineId n s) :
    (n :: (startUps engineId stores s).1.reduceOption.map UInt32.toNat).Pairwise (· < ·) ∧
      ∀ boots ∈ (startUps engineId stores s).1.reduceOption, boots.toNat ≤
        maxEngineBoots.toNat := by
  induction stores generalizing n s with
  | nil => simp [startUps]
  | cons store stores ih =>
    generalize hup : startUp engineId store s = r at *
    obtain ⟨boots?, s'⟩ := r
    obtain ⟨hsome, hnone⟩ := startUp_since (hF store List.mem_cons_self) H hup
    have hF' : ∀ store ∈ stores, store.Faithful engineId contents :=
      fun store hstore => hF store (List.mem_cons_of_mem _ hstore)
    simp only [startUps, hup]
    cases boots? with
    | none =>
      rw [List.reduceOption_cons_of_none]
      exact ih hF' hnone
    | some boots =>
      obtain ⟨hlt, hle, hsince⟩ := hsome boots rfl
      obtain ⟨hinc, hmax⟩ := ih hF' hsince
      rw [List.reduceOption_cons_of_some, List.map_cons]
      refine ⟨List.pairwise_cons.mpr ⟨List.forall_mem_cons.mpr ⟨hlt, fun m hm => ?_⟩, hinc⟩,
        List.forall_mem_cons.mpr ⟨hle, hmax⟩⟩
      exact hlt.trans ((List.pairwise_cons.mp hinc).1 m hm)

theorem startUps_exhausted (hF : ∀ store ∈ stores, store.Faithful engineId contents)
    (H : Exhausted contents engineId s) :
    ∀ boots? ∈ (startUps engineId stores s).1, boots? = none := by
  induction stores generalizing s with
  | nil => nofun
  | cons store stores ih =>
    generalize hup : startUp engineId store s = r
    obtain ⟨boots?, s'⟩ := r
    obtain ⟨hnone, hs'⟩ := startUp_exhausted (hF store List.mem_cons_self) H hup
    simp only [startUps, hup]
    refine List.forall_mem_cons.mpr ⟨hnone, ih (fun store hstore => ?_) ?_⟩
    · exact hF store (List.mem_cons_of_mem _ hstore)
    · rwa [Exhausted, hs']

end

end

/-! ## The file -/

def unexpectedLength : IoError := ⟨.invalidData, "engine-boots file has unexpected length"⟩

def implausibleLength : IoError :=
  ⟨.invalidData, "engine-boots file contains implausible engine ID length"⟩

/-- The contents of the file: the length of the engine ID in four bytes, the engine ID, and the
boots value in four bytes. -/
def parseBootsFile (fileData : Bytes) : Res IoError StoredBootsState :=
  if fileData.length < 4 then .err unexpectedLength
  else
    let engineIdLen := fromBE (fileData.take 4)
    let rest := fileData.drop 4
    if engineIdLen > maxEngineIdLen then .err implausibleLength
    else if rest.length ≠ engineIdLen + 4 then .err unexpectedLength
    else
      let engineId := rest.take engineIdLen
      let bootsTail := rest.drop engineIdLen
      if bootsTail.length ≠ 4 then .err unexpectedLength
      else .ok ⟨engineId, .ofNat (fromBE bootsTail)⟩

/-- What `save` writes, if the length of the engine ID fits into four bytes. -/
def bootsFile (engineId : Bytes) (boots : UInt32) : Res IoError Bytes :=
  if engineId.length < 2 ^ 32 then .ok (toBE 4 engineId.length ++ engineId ++ toBE 4 boots.toNat)
  else .err ⟨.invalidInput, "engine ID too long"⟩

section
variable {engineId fileData : Bytes} {boots : UInt32} {state : StoredBootsState}

theorem bootsFile_eq_ok : bootsFile engineId boots = .ok fileData ↔
    engineId.length < 2 ^ 32 ∧ fileData = toBE 4 engineId.length ++ engineId ++
      toBE 4 boots.toNat := by
  rw [bootsFile, Res.guard_not_eq_ok, Res.ok.injEq, eq_comm (a := fileData)]

theorem fromBE_take_bootsFile (h : engineId.length < 2 ^ 32) (tail : Bytes) :
    fromBE ((toBE 4 engineId.length ++ engineId ++ tail).take 4) = engineId.length := by
  rw [List.append_assoc, List.take_left' (length_toBE ..), fromBE_toBE_of_lt h]

theorem drop_bootsFile (tail : Bytes) :
    (toBE 4 engineId.length ++ engineId ++ tail).drop 4 = engineId ++ tail := by
  rw [List.append_assoc, List.drop_left' (length_toBE ..)]

theorem parseBootsFile_err (fileData : Bytes) : (∃ state, parseBootsFile fileData = .ok state) ∨
    ∃ e, parseBootsFile fileData = .err e ∧ e.kind = .invalidData := by
  simp only [parseBootsFile]
  split
  · exact .inr ⟨_, rfl, rfl⟩
  split
  · exact .inr ⟨_, rfl, rfl⟩
  split
  · exact .inr ⟨_, rfl, rfl⟩
  split
  · exact .inr ⟨_, rfl, rfl⟩
  · exact .inl ⟨_, rfl⟩

/-- A file is read exactly if it was written for an engine ID of legal length. -/
theorem parseBootsFile_eq_ok : parseBootsFile fileData = .ok state ↔
    state.engineId.length ≤ maxEngineIdLen ∧ bootsFile state.engineId state.boots =
      .ok fileData := by
  obtain ⟨engineId, boots⟩ := state
  dsimp only
  rw [bootsFile_eq_ok]
  constructor
  · intro h
    simp only [parseBootsFile, Res.guard_eq_ok, not_lt, Decidable.not_not] at h
    obtain ⟨hfour, hlen, hrest, htail, hstate⟩ := h
    cases hstate
    have hidlen : ((fileData.drop 4).take (fromBE (fileData.take 4))).length =
        fromBE (fileData.take 4) := by
      rw [List.length_take, hrest]
      omega
    refine ⟨hidlen.trans_le hlen, by rw [hidlen]; exact hlen.trans_lt (by decide), ?_⟩
    have htake : toBE 4 (fromBE (fileData.take 4)) = fileData.take 4 := by
      have := toBE_fromBE (fileData.take 4)
      rwa [List.length_take, Nat.min_eq_left hfour] at this
    have hboots : toBE 4
      (UInt32.ofNat (fromBE ((fileData.drop 4).drop (fromBE (fileData.take 4))))).toNat =
        (fileData.drop 4).drop (fromBE (fileData.take 4)) := by
      have hlt := fromBE_lt ((fileData.drop 4).drop (fromBE (fileData.take 4)))
      have := toBE_fromBE ((fileData.drop 4).drop (fromBE (fileData.take 4)))
      rw [htail] at hlt this
      rwa [UInt32.toNat_ofNat_of_lt' hlt]
    rw [hidlen, htake, hboots, List.append_assoc, List.take_append_drop, List.take_append_drop]
  · rintro ⟨hlen, hlt, rfl⟩
    simp only [parseBootsFile, fromBE_take_bootsFile hlt, drop_bootsFile, Res.guard_eq_ok,
      List.take_left, List.drop_left, List.length_append, length_toBE, not_lt, Decidable.not_not]
    refine ⟨by omega, hlen, trivial, trivial, ?_⟩
    rw [fromBE_toBE_of_lt boots.toNat_lt, UInt32.ofNat_toNat]

/-- A file that was cut short is not taken for another one. -/
theorem parseBootsFile_take {n : Nat} (h : bootsFile engineId boots = .ok fileData)
    (hn : n < fileData.length) : parseBootsFile (fileData.take n) ≠ .ok state := by
  intro hparse
  obtain ⟨-, hcut⟩ := parseBootsFile_eq_ok.mp hparse
  obtain ⟨hlt, rfl⟩ := bootsFile_eq_ok.mp h
  obtain ⟨hlt', hcut⟩ := bootsFile_eq_ok.mp hcut
  have hlength := congrArg List.length hcut
  simp only [List.length_take, List.length_append, length_toBE] at hn hlength
  -- Both files begin with the same four bytes, so they say the same length.
  have hsame : engineId.length = state.engineId.length := by
    rw [← fromBE_take_bootsFile hlt (toBE 4 boots.toNat), ← fromBE_take_bootsFile hlt',
      ← hcut, List.take_take, Nat.min_eq_left (by omega)]
  omega

end

/-- The temporary file is `path.with_extension("tmp")`, which may be `path` itself. -/
structure FileEngineBootsStore (P : Type) where
  path : P
  tmpPath : P

/-- The faults that a store meets. A file that is there is not reported as missing. -/
structure BootsFaults where
  onLoad : Option Stop
  onSave : Option Fault
  honest : ∀ e, onLoad = some (.error e) → e.kind ≠ .notFound

def BootsFaults.none : BootsFaults := ⟨.none, .none, nofun⟩

section
variable {P : Type}

namespace FileEngineBootsStore
variable (store : FileEngineBootsStore P) (faults : BootsFaults)

/-- The answer of `std::fs::read`, if the process lives to see it. -/
def read (disk : Disk P) : Res Stop (Except IoError Bytes) :=
  match faults.onLoad with
  | none => .ok (readFile store.path disk)
  | some (.error e) => .ok (.error e)
  | some .killed => .err .killed

def load : Act (Disk P) Stop (Option StoredBootsState) := do
  match ← Act.lift (store.read faults (← get)) with
  | .ok fileData => return some (← .lift ((parseBootsFile fileData).mapErr .error))
  | .error e => if e.kind = .notFound then return none else .fail (.error e)

/-- What the file holds. -/
def contents (disk : Disk P) : Contents :=
  match disk store.path with
  | none => .holds none
  | some fileData =>
    match parseBootsFile fileData with
    | .ok state => .holds (some state)
    | _ => .unreadable

section
variable {disk : Disk P}

theorem contents_of_none (h : disk store.path = none) : store.contents disk = .holds none := by
  rw [contents, h]

theorem contents_of_some {fileData : Bytes} {state : StoredBootsState}
    (h : disk store.path = some fileData) (hparse : parseBootsFile fileData = .ok state) :
    store.contents disk = .holds (some state) := by
  rw [contents, h]
  simp only [hparse]

theorem contents_of_err {fileData : Bytes} {e : IoError} (h : disk store.path = some fileData)
    (hparse : parseBootsFile fileData = .err e) : store.contents disk = .unreadable := by
  rw [contents, h]
  simp only [hparse]

theorem contents_of_bootsFile {engineId fileData : Bytes} {boots : UInt32}
    (hid : engineId.length ≤ maxEngineIdLen)
    (hdata : bootsFile engineId boots = .ok fileData) (h : disk store.path = some fileData) :
    store.contents disk = .holds (some ⟨engineId, boots⟩) :=
  store.contents_of_some h (parseBootsFile_eq_ok.mpr ⟨hid, hdata⟩)

variable {store faults}

theorem load_of_error {e : IoError} (h : store.read faults disk = .ok (.error e)) :
    (store.load faults).run disk =
      if e.kind = .notFound then .ok (none, disk) else .err (.error e, disk) := by
  simp only [load, StateT.run_bind, StateT.run_get, Act.run_lift, h, Res.mapErr_ok, Res.ok_bind,
    Res.pure_eq]
  split <;> rfl

theorem load_of_ok {fileData : Bytes} (h : store.read faults disk = .ok (.ok fileData)) :
    (store.load faults).run disk =
      ((parseBootsFile fileData).mapErr fun e => (Stop.error e, disk)) >>= fun state =>
        .ok (some state, disk) := by
  simp only [load, StateT.run_bind, StateT.run_get, Act.run_lift, h, Res.mapErr_ok, Res.ok_bind,
    Res.pure_eq]
  cases parseBootsFile fileData <;> rfl

theorem load_of_killed (h : store.read faults disk = .err .killed) :
    (store.load faults).run disk = .err (.killed, disk) := by
  simp only [load, StateT.run_bind, StateT.run_get, Act.run_lift, h, Res.mapErr_err, Res.err_bind,
    Res.ok_bind, Res.pure_eq]

variable (store faults disk)

/-- A load without a fault finds what the file holds. -/
theorem load_of_none (h : faults.onLoad = none) :
    (∃ state, store.contents disk = .holds state ∧ (store.load faults).run disk =
      .ok (state, disk)) ∨
      store.contents disk = .unreadable ∧ ∃ e, e.kind = .invalidData ∧
        (store.load faults).run disk = .err (.error e, disk) := by
  cases hfile : disk store.path with
  | none =>
    have hread : store.read faults disk = .ok (.error ⟨.notFound, "entity not found"⟩) := by
      simp only [read, h, readFile, hfile]
    exact .inl ⟨none, store.contents_of_none hfile, (load_of_error hread).trans (if_pos rfl)⟩
  | some fileData =>
    have hread : store.read faults disk = .ok (.ok fileData) := by
      simp only [read, h, readFile, hfile]
    rcases parseBootsFile_err fileData with ⟨state, hparse⟩ | ⟨e, hparse, hkind⟩
    · refine .inl ⟨some state, store.contents_of_some hfile hparse, ?_⟩
      rw [load_of_ok hread, hparse, Res.mapErr_ok, Res.ok_bind]
    · refine .inr ⟨store.contents_of_err hfile hparse, e, hkind, ?_⟩
      rw [load_of_ok hread, hparse, Res.mapErr_err, Res.err_bind]

/-- Loading leaves the disk alone, and if it succeeds it finds what the file holds. -/
theorem load_cases :
    (∃ stop, (store.load faults).run disk = .err (stop, disk)) ∨
      ∃ state, (store.load faults).run disk = .ok (state, disk) ∧
        store.contents disk = .holds state := by
  cases hfault : faults.onLoad with
  | none =>
    rcases store.load_of_none faults disk hfault with ⟨state, hs, hrun⟩ | ⟨-, e, -, hrun⟩
    · exact .inr ⟨state, hrun, hs⟩
    · exact .inl ⟨_, hrun⟩
  | some stop =>
    cases stop with
    | killed => exact .inl ⟨_, load_of_killed (by simp only [read, hfault])⟩
    | error e =>
      refine .inl ⟨_, (load_of_error (e := e) (by simp only [read, hfault])).trans (if_neg ?_)⟩
      exact faults.honest e hfault

end

variable [DecidableEq P]

def save (engineId : Bytes) (boots : UInt32) : Act (Disk P) Stop Unit :=
  Session.within
    (replaceFile store.tmpPath store.path ((bootsFile engineId boots).mapErr .error)) faults.onSave

/-- The store of one start-up. -/
def under : EngineBootsStore (Disk P) Stop := ⟨store.load faults, store.save faults⟩

section
variable {engineId : Bytes} {boots : UInt32} {disk disk' : Disk P}

/-- Saving is all or nothing, except for a file that is its own temporary file. -/
theorem save_cases (hid : engineId.length ≤ maxEngineIdLen) :
    (∃ disk', (store.save faults engineId boots).run disk = .ok ((), disk') ∧
      store.contents disk' = .holds (some ⟨engineId, boots⟩)) ∨
    ∃ stop disk', (store.save faults engineId boots).run disk = .err (stop, disk') ∧
      (store.contents disk' = store.contents disk ∨
        store.contents disk' = .holds (some ⟨engineId, boots⟩) ∨
        store.contents disk' = .unreadable) := by
  obtain ⟨fileData, hdata⟩ : ∃ fileData, bootsFile engineId boots = .ok fileData :=
    ⟨_, bootsFile_eq_ok.mpr ⟨hid.trans_lt (by decide), rfl⟩⟩
  rw [save, hdata, Res.mapErr_ok]
  rcases replaceFile_cases store.tmpPath store.path fileData disk faults.onSave with
    ⟨disk', hrun, hfile⟩ | ⟨stop, disk', hrun, hfile | hfile | ⟨-, n, hn, hfile⟩⟩
  · exact .inl ⟨disk', hrun, store.contents_of_bootsFile hid hdata hfile⟩
  · refine .inr ⟨stop, disk', hrun, .inl ?_⟩
    rw [contents, contents, hfile]
  · exact .inr ⟨stop, disk', hrun, .inr (.inl (store.contents_of_bootsFile hid hdata hfile))⟩
  · refine .inr ⟨stop, disk', hrun, .inr (.inr ?_)⟩
    rcases parseBootsFile_err (fileData.take n) with ⟨state, hparse⟩ | ⟨e, hparse, -⟩
    · exact absurd hparse (parseBootsFile_take hdata hn)
    · exact store.contents_of_err hfile hparse

theorem faithful_under (hid : engineId.length ≤ maxEngineIdLen) :
    (store.under faults).Faithful engineId store.contents where
  load_ok {s state s'} h := by
    rcases store.load_cases faults s with ⟨stop, hrun⟩ | ⟨state', hrun, hs⟩
    · cases hrun.symm.trans h
    · cases hrun.symm.trans h
      exact ⟨hs, rfl⟩
  load_err {s e s'} h := by
    rcases store.load_cases faults s with ⟨stop, hrun⟩ | ⟨state', hrun, hs⟩
    · cases hrun.symm.trans h
      rfl
    · cases hrun.symm.trans h
  save_ok {boots s s'} h := by
    rcases store.save_cases faults hid with ⟨disk', hrun, hs⟩ | ⟨stop, disk', hrun, -⟩
    · cases hrun.symm.trans h
      exact hs
    · cases hrun.symm.trans h
  save_err {boots s e s'} h := by
    rcases store.save_cases faults hid with ⟨disk', hrun, -⟩ | ⟨stop, disk', hrun, hs⟩
    · cases hrun.symm.trans h
    · cases hrun.symm.trans h
      exact hs

/-- A file that cannot be read is left as it is, and the start-up fails. -/
theorem startUp_of_unreadable (h : store.contents disk = .unreadable) :
    startUp engineId (store.under faults) disk = (none, disk) := by
  rcases store.load_cases faults disk with ⟨stop, hrun⟩ | ⟨state, -, hs⟩
  · have hload : (store.under faults).load.run disk = .err (stop, disk) := hrun
    rw [startUp, initialiseEngineBoots_eq, StateT.run_bind, Act.run_mapErr, hload]
    rfl
  · cases hs.symm.trans h

/-- A file that no save writes is not a boots file. -/
theorem contents_of_not_saved {fileData : Bytes} (hfile : disk store.path = some fileData)
    (h : ∀ id : Bytes, id.length ≤ 32 → ∀ faults boots disk₀ disk₁,
      (store.save faults id boots).run disk₀ = .ok ((), disk₁) →
      disk₁ store.path ≠ some fileData) : store.contents disk = .unreadable := by
  rcases parseBootsFile_err fileData with ⟨state, hparse⟩ | ⟨e, hparse, -⟩
  · obtain ⟨hlen, hdata⟩ := parseBootsFile_eq_ok.mp hparse
    obtain ⟨disk₁, hrun, hdisk⟩ := replaceFile_none store.tmpPath store.path fileData disk
    refine absurd hdisk (h state.engineId hlen .none state.boots disk disk₁ ?_)
    rw [save, hdata]
    exact hrun
  · exact store.contents_of_err hfile hparse

/-- **Engine boots across restarts.** From a missing file on, the boots values of the start-ups that
succeed increase, whatever faults the start-ups meet, and they stay in the range of the counter.
Once the file holds the ceiling no start-up succeeds. A load finds what a save wrote, and a file
that no save writes is an error and stays as it is. -/
theorem boots_across_restarts (engineId : Bytes) (hid : engineId.length ≤ 32) :
    (∀ (disk : Disk P) (history : List BootsFaults), disk store.path = none →
      let boots := (startUps engineId (history.map (store.under ·)) disk).1.reduceOption
      boots.Pairwise (· < ·) ∧ ∀ b ∈ boots, 1 ≤ b ∧ b ≤ 0x7FFFFFFF) ∧
    (∀ (disk : Disk P) (history : List BootsFaults),
      (store.load .none).run disk = .ok (some ⟨engineId, 0x7FFFFFFF⟩, disk) →
      ∀ boots? ∈ (startUps engineId (history.map (store.under ·)) disk).1, boots? = none) ∧
    (∀ (faults : BootsFaults) (boots : UInt32) (disk disk' : Disk P),
      (store.save faults engineId boots).run disk = .ok ((), disk') →
      (store.load .none).run disk' = .ok (some ⟨engineId, boots⟩, disk')) ∧
    ∀ (disk : Disk P) (fileData : Bytes), disk store.path = some fileData →
      (∀ id : Bytes, id.length ≤ 32 → ∀ faults boots disk₀ disk₁,
        (store.save faults id boots).run disk₀ = .ok ((), disk₁) →
        disk₁ store.path ≠ some fileData) →
      (∃ e, e.kind = .invalidData ∧ (store.load .none).run disk = .err (.error e, disk)) ∧
        ∀ faults, startUp engineId (store.under faults) disk = (none, disk) := by
  have hF : ∀ (history : List BootsFaults), ∀ s ∈ history.map (store.under ·),
      s.Faithful engineId store.contents := by
    intro history s hs
    obtain ⟨faults, -, rfl⟩ := List.mem_map.mp hs
    exact store.faithful_under faults hid
  refine ⟨fun disk history _ => ?_, fun disk history hload => ?_,
    fun faults boots disk disk' hsave => ?_, fun disk fileData hfile hno => ?_⟩
  · obtain ⟨hinc, hmax⟩ := startUps_increasing (hF history) (.inl rfl : Since _ _ 0 disk)
    obtain ⟨hpos, hinc⟩ := List.pairwise_cons.mp hinc
    refine ⟨(List.pairwise_map.mp hinc).imp UInt32.lt_iff_toNat_lt.mpr, fun b hb => ⟨?_, ?_⟩⟩
    · exact UInt32.le_iff_toNat_le.mpr (hpos b.toNat (List.mem_map_of_mem hb))
    · exact UInt32.le_iff_toNat_le.mpr (hmax b hb)
  · refine startUps_exhausted (hF history) (.inr ?_)
    rcases store.load_cases .none disk with ⟨stop, hrun⟩ | ⟨state, hrun, hs⟩
    · cases hrun.symm.trans hload
    · cases hrun.symm.trans hload
      exact hs
  · have hsaved := (store.faithful_under faults hid).save_ok hsave
    rcases store.load_of_none .none disk' rfl with ⟨state, hs, hrun⟩ | ⟨hs, -⟩
    · cases hs.symm.trans hsaved
      exact hrun
    · cases hs.symm.trans hsaved
  · have hs := store.contents_of_not_saved hfile hno
    refine ⟨?_, fun faults => store.startUp_of_unreadable faults hs⟩
    rcases store.load_of_none .none disk rfl with ⟨state, hs', -⟩ | ⟨-, he⟩
    · cases hs.symm.trans hs'
    · exact he

end

/-- The second start-up is killed when its rename has taken effect. -/
theorem boots_across_restarts_sample :
    let store : FileEngineBootsStore Bool := ⟨true, false⟩
    let history : List BootsFaults := [.none, ⟨none, some ⟨3, 1, .killed⟩, nofun⟩, .none]
    let boots := (startUps [0x80, 0, 0, 0, 1] (history.map (store.under ·)) fun _ => none).1
    boots = [some 1, none, some 3] ∧ boots.reduceOption.Pairwise (· < ·) := by
  intro store history boots
  have hboots : boots = [some 1, none, some 3] := by decide +kernel
  have H := (boots_across_restarts store [0x80, 0, 0, 0, 1] (by decide)).1 (fun _ => none) history
    rfl
  exact ⟨hboots, H.1⟩

end FileEngineBootsStore

end

end SnmpAgent
