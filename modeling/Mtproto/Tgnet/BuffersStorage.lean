import Mtproto.Lib.Program
import Mtproto.Tgnet.Reassembly

/-!
# The pool of buffers

`BuffersStorage.cpp`.  A `NativeByteBuffer *` is the address of the object in `heap`; `held` are the
buffers that were handed out and have not come back.  A free list is chosen by a range of sizes when
a buffer is taken and by an exact capacity when it is given back.
-/

namespace Mtproto.Tgnet

open Lib Program NativeByteBuffer

structure BuffersStorage where
  heap : ℕ → Option NativeByteBuffer
  freeBuffers : FreeList → List ℕ
  held : List ℕ

namespace BuffersStorage

/-! ## Operations -/

/-- `arrayToGetFrom` with its `byteCount`. -/
def arrayToGetFrom (size : ℕ) : Option (FreeList × ℕ) :=
  if size ≤ 8 then some (.freeBuffers8, 8)
  else if size ≤ 128 then some (.freeBuffers128, 128)
  else if size ≤ 1024 + 200 then some (.freeBuffers1024, 1024 + 200)
  else if size ≤ 4096 + 200 then some (.freeBuffers4096, 4096 + 200)
  else if size ≤ 16384 + 200 then some (.freeBuffers16384, 16384 + 200)
  else if size ≤ 40000 then some (.freeBuffers32768, 40000)
  else if size ≤ 160000 then some (.freeBuffersBig, 160000)
  else none

def put (address : ℕ) (object : Option NativeByteBuffer) : Program BuffersStorage Unit :=
  update fun s => { s with heap := Function.update s.heap address object }

def setFreeBuffers (array : FreeList) (buffers : List ℕ) : Program BuffersStorage Unit :=
  update fun s => { s with freeBuffers := Function.update s.freeBuffers array buffers }

/-- `new NativeByteBuffer(size)`, at an address where nothing is. -/
def create (address size : ℕ) : Program BuffersStorage ℕ := do
  let s ← read
  if s.heap address = none then do
    put address (some (.new size))
    pure address
  else fault

/-- The buffer that `getFreeBuffer` returns, before its limit is set. -/
def takeBuffer (size address : ℕ) : Program BuffersStorage ℕ :=
  match arrayToGetFrom size with
  | none => create address size
  | some (array, byteCount) => do
      let s ← read
      match s.freeBuffers array with
      | buffer :: rest => do
          setFreeBuffers array rest
          pure buffer
      | [] => create address byteCount

/-- `getFreeBuffer`; the address is that of a new object if there is one. -/
def getFreeBuffer (size address : ℕ) : Program BuffersStorage ℕ := do
  let buffer ← takeBuffer size address
  let s ← read
  let b ← require (s.heap buffer)
  put buffer (some (b.setLimit size).rewind)
  update fun s => { s with held := buffer :: s.held }
  pure buffer

def reuseFreeBuffer (buffer : ℕ) : Program BuffersStorage Unit := do
  update fun s => { s with held := s.held.erase buffer }
  let s ← read
  let b ← require (s.heap buffer)
  match arrayToReuse b.capacity with
  | none => put buffer none
  | some (array, maxCount) =>
      if (s.freeBuffers array).length < maxCount then
        setFreeBuffers array (s.freeBuffers array ++ [buffer])
      else put buffer none

/-- The pool after its constructor, at whatever addresses its buffers are. -/
def initial (small large : List ℕ) : BuffersStorage where
  heap address :=
    if address ∈ small then some (.new 8) else if address ∈ large then some (.new 128) else none
  freeBuffers
    | .freeBuffers8 => small
    | .freeBuffers128 => large
    | _ => []
  held := []

inductive Started : BuffersStorage → Prop
  | mk (small large : List ℕ) (four : small.length = 4) (five : large.length = 5)
      (distinct : (small ++ large).Nodup) :
      Started (initial small large)

/-- What the rest of the client does with the pool: it takes a buffer, it does anything to a buffer
that it holds short of changing its capacity, and it gives a buffer back that it holds. -/
inductive Input
  | getFreeBuffer (size address : ℕ)
  | use (buffer : ℕ) (contents : NativeByteBuffer)
  | reuseFreeBuffer (buffer : ℕ)

def step : Input → Program BuffersStorage Unit
  | .getFreeBuffer size address => do
      let _ ← getFreeBuffer size address
      pure ()
  | .use buffer contents => do
      let s ← read
      if buffer ∈ s.held then do
        let b ← require (s.heap buffer)
        put buffer (some { contents with capacity := b.capacity })
      else fault
  | .reuseFreeBuffer buffer => do
      let s ← read
      if buffer ∈ s.held then reuseFreeBuffer buffer else fault

/-- The states of a run in which nobody gives a buffer back that he does not hold. -/
abbrev Reached : BuffersStorage → Prop := Reaches step Started fun _ _ => True

/-! ## The classes -/

end BuffersStorage

/-- The capacity of the buffers of a list. -/
def FreeList.capacity : FreeList → ℕ
  | .freeBuffers8 => 8
  | .freeBuffers128 => 128
  | .freeBuffers1024 => 1024 + 200
  | .freeBuffers4096 => 4096 + 200
  | .freeBuffers16384 => 16384 + 200
  | .freeBuffers32768 => 40000
  | .freeBuffersBig => 160000

/-- How many buffers a list can hold. -/
def FreeList.maxCount : FreeList → ℕ
  | .freeBuffers8 | .freeBuffers128 => 80
  | _ => 10

namespace BuffersStorage

theorem capacity_injective {l l' : FreeList} (same : l.capacity = l'.capacity) : l = l' := by
  cases l <;> cases l' <;> first | rfl | exact absurd same (by decide)

theorem arrayToGetFrom_some {size count : ℕ} {array : FreeList}
    (found : arrayToGetFrom size = some (array, count)) :
    count = array.capacity ∧ count = byteCount size := by
  unfold arrayToGetFrom at found
  unfold byteCount
  split_ifs at found ⊢ <;> cases found <;> exact ⟨rfl, rfl⟩

theorem arrayToGetFrom_none {size : ℕ} (found : arrayToGetFrom size = none) :
    size = byteCount size := by
  unfold arrayToGetFrom at found
  unfold byteCount
  split_ifs at found ⊢
  rfl

theorem arrayToReuse_some {capacity maxCount : ℕ} {array : FreeList}
    (found : arrayToReuse capacity = some (array, maxCount)) :
    capacity = array.capacity ∧ maxCount = array.maxCount := by
  unfold arrayToReuse at found
  split_ifs at found <;> cases found <;> exact ⟨by assumption, rfl⟩

/-! ## The invariant -/

/-- What every reached state satisfies. -/
structure Sound (s : BuffersStorage) : Prop where
  classes : ∀ l, ∀ buffer ∈ s.freeBuffers l, ∃ b, s.heap buffer = some b ∧ b.capacity = l.capacity
  distinct : ∀ l, (s.freeBuffers l).Nodup
  bounded : ∀ l, (s.freeBuffers l).length ≤ l.maxCount
  held_distinct : s.held.Nodup
  live : ∀ buffer ∈ s.held, (s.heap buffer).isSome
  apart : ∀ buffer ∈ s.held, ∀ l, buffer ∉ s.freeBuffers l

theorem sound_of_started {s : BuffersStorage} (started : Started s) : Sound s := by
  obtain ⟨small, large, four, five, distinct⟩ := started
  obtain ⟨distinct_small, distinct_large, disjoint⟩ := List.nodup_append.1 distinct
  refine ⟨fun l buffer mem => ?_, fun l => ?_, fun l => ?_,
    List.nodup_nil, by simp [initial], by simp [initial]⟩
  · cases l with
    | freeBuffers8 => exact ⟨.new 8, if_pos mem, rfl⟩
    | freeBuffers128 =>
        have apart : buffer ∉ small := fun mem' => disjoint buffer mem' buffer mem rfl
        exact ⟨.new 128, (if_neg apart).trans (if_pos mem), rfl⟩
    | _ => cases mem
  · cases l with
    | freeBuffers8 => exact distinct_small
    | freeBuffers128 => exact distinct_large
    | _ => exact List.nodup_nil
  · cases l with
    | freeBuffers8 => exact four.le.trans (by decide)
    | freeBuffers128 => exact five.le.trans (by decide)
    | _ => exact Nat.zero_le _

section Changes

variable {s : BuffersStorage} {buffer : ℕ}

/-- Another object at an address that keeps the class of the free list and is there for the
holder. -/
theorem Sound.put (sound : Sound s) {object : Option NativeByteBuffer}
    (same : ∀ l, buffer ∈ s.freeBuffers l → ∃ b, object = some b ∧ b.capacity = l.capacity)
    (held : buffer ∈ s.held → object.isSome) :
    Sound { s with heap := Function.update s.heap buffer object } := by
  refine ⟨fun l other mem => ?_, sound.distinct, sound.bounded, sound.held_distinct,
    fun other mem => ?_, sound.apart⟩
  · rcases eq_or_ne other buffer with rfl | different
    · obtain ⟨b, rfl, capacity⟩ := same l mem
      exact ⟨b, Function.update_self .., capacity⟩
    · obtain ⟨b, here, capacity⟩ := sound.classes l other mem
      exact ⟨b, (Function.update_of_ne different ..).trans here, capacity⟩
  · rcases eq_or_ne other buffer with rfl | different
    · have here : (Function.update s.heap other object) other = object := Function.update_self ..
      exact (congrArg Option.isSome here).trans (held mem)
    · have there : (Function.update s.heap buffer object) other = s.heap other :=
        Function.update_of_ne different ..
      exact (congrArg Option.isSome there).trans (sound.live other mem)

/-- A list with other members, each of its own class. -/
theorem Sound.setFreeBuffers (sound : Sound s) {array : FreeList} {buffers : List ℕ}
    (classes : ∀ buffer ∈ buffers, ∃ b, s.heap buffer = some b ∧ b.capacity = array.capacity)
    (distinct : buffers.Nodup)
    (bounded : buffers.length ≤ array.maxCount) (apart : ∀ buffer ∈ s.held, buffer ∉ buffers) :
    Sound { s with freeBuffers := Function.update s.freeBuffers array buffers } := by
  have lists : ∀ l, (Function.update s.freeBuffers array buffers) l =
      if l = array then buffers else s.freeBuffers l :=
    fun l => Function.update_apply s.freeBuffers array buffers l
  refine ⟨fun l other mem => ?_, fun l => ?_, fun l => ?_, sound.held_distinct, sound.live,
    fun other mem l => ?_⟩
  · change other ∈ (Function.update s.freeBuffers array buffers) l at mem
    rw [lists] at mem
    split_ifs at mem with same
    · rw [same]
      exact classes other mem
    · exact sound.classes l other mem
  · show ((Function.update s.freeBuffers array buffers) l).Nodup
    rw [lists]
    split_ifs
    · exact distinct
    · exact sound.distinct l
  · show ((Function.update s.freeBuffers array buffers) l).length ≤ _
    rw [lists]
    split_ifs with same
    · rwa [same]
    · exact sound.bounded l
  · show other ∉ (Function.update s.freeBuffers array buffers) l
    rw [lists]
    split_ifs
    · exact apart other mem
    · exact sound.apart other mem l

/-- A buffer is in the list of its own class only. -/
theorem Sound.class_eq (sound : Sound s) {l l' : FreeList} (mem : buffer ∈ s.freeBuffers l)
    (mem' : buffer ∈ s.freeBuffers l') : l = l' := by
  obtain ⟨b, here, capacity⟩ := sound.classes l buffer mem
  obtain ⟨b', here', capacity'⟩ := sound.classes l' buffer mem'
  cases here.symm.trans here'
  exact capacity_injective (capacity.symm.trans capacity')

end Changes

/-! ## Steps -/

/-- A buffer of this capacity that nobody has: it is not held and in no list. -/
structure Spare (s : BuffersStorage) (capacity buffer : ℕ) : Prop where
  object : ∃ b, s.heap buffer = some b ∧ b.capacity = capacity
  unheld : buffer ∉ s.held
  unlisted : ∀ l, buffer ∉ s.freeBuffers l

theorem create_run {s t : BuffersStorage} {address size buffer : ℕ} (sound : Sound s)
    (run : create address size s = some (buffer, t)) :
    Sound t ∧ Spare t size buffer ∧ t.held = s.held := by
  rw [create, read_bind] at run
  split_ifs at run with unused
  · rw [put, update_bind] at run
    obtain ⟨rfl, rfl⟩ := pure_run run
    have unlisted : ∀ l, buffer ∉ s.freeBuffers l := by
      intro l mem
      obtain ⟨b, here, -⟩ := sound.classes l buffer mem
      rw [unused] at here
      cases here
    have unheld : buffer ∉ s.held := by
      intro mem
      have live := sound.live buffer mem
      rw [unused] at live
      cases live
    exact ⟨sound.put (fun l mem => absurd mem (unlisted l)) fun _ => rfl,
      ⟨⟨.new size, Function.update_self .., rfl⟩, unheld, unlisted⟩, rfl⟩
  · cases run

theorem takeBuffer_run {s t : BuffersStorage} {size address buffer : ℕ} (sound : Sound s)
    (run : takeBuffer size address s = some (buffer, t)) :
    Sound t ∧ Spare t (byteCount size) buffer ∧ t.held = s.held := by
  cases found : arrayToGetFrom size with
  | none =>
      simp only [takeBuffer, found] at run
      rw [← arrayToGetFrom_none found]
      exact create_run sound run
  | some entry =>
      obtain ⟨array, count⟩ := entry
      obtain ⟨capacity_eq, rfl⟩ := arrayToGetFrom_some found
      simp only [takeBuffer, found] at run
      rw [read_bind] at run
      cases listed : s.freeBuffers array with
      | cons first rest =>
          simp only [listed] at run
          rw [setFreeBuffers, update_bind] at run
          obtain ⟨rfl, rfl⟩ := pure_run run
          have mem : buffer ∈ s.freeBuffers array := by simp [listed]
          have distinct := sound.distinct array
          rw [listed, List.nodup_cons] at distinct
          have bounded := sound.bounded array
          rw [listed, List.length_cons] at bounded
          obtain ⟨b, here, capacity⟩ := sound.classes array buffer mem
          refine ⟨sound.setFreeBuffers (fun other mem' => ?_) distinct.2 (by omega)
            fun other held mem' => ?_, ?_, rfl⟩
          · exact sound.classes array other (by simp [listed, mem'])
          · exact sound.apart other held array (by simp [listed, mem'])
          · refine ⟨⟨b, here, capacity.trans capacity_eq.symm⟩, fun held =>
              sound.apart buffer held array mem, fun l mem' => ?_⟩
            change buffer ∈ (Function.update s.freeBuffers array rest) l at mem'
            rw [Function.update_apply] at mem'
            split_ifs at mem' with same
            · exact distinct.1 mem'
            · exact same (sound.class_eq mem' mem)
      | nil =>
          simp only [listed] at run
          exact create_run sound run

/-- What `getFreeBuffer` returns in a state; but for its old contents it is a new buffer of the
size. -/
structure Served (s t : BuffersStorage) (size buffer : ℕ) : Prop where
  object : ∃ b, t.heap buffer = some b ∧ b.position = 0 ∧ b.limit = size ∧ size ≤ b.capacity
  likeNew : ∃ contents, t.heap buffer = some { Tgnet.getFreeBuffer size with buffer := contents }
  unheld : buffer ∉ s.held
  held : t.held = buffer :: s.held
  unlisted : ∀ l, buffer ∉ t.freeBuffers l

theorem setLimit_rewind {b : NativeByteBuffer} {size : ℕ} (capacity : b.capacity = byteCount size) :
    (b.setLimit size).rewind = { Tgnet.getFreeBuffer size with buffer := b.buffer } := by
  have large := le_byteCount size
  rw [getFreeBuffer_eq, setLimit, if_neg (by omega), rewind, capacity]

theorem getFreeBuffer_run {s t : BuffersStorage} {size address buffer : ℕ} (sound : Sound s)
    (run : getFreeBuffer size address s = some (buffer, t)) : Sound t ∧ Served s t size buffer := by
  unfold getFreeBuffer at run
  obtain ⟨taken, v, take, run⟩ := bind_run run
  obtain ⟨sound', ⟨⟨b, here, capacity⟩, unheld, unlisted⟩, held⟩ := takeBuffer_run sound take
  rw [read_bind] at run
  obtain ⟨b', v', required, run⟩ := bind_run run
  obtain ⟨same, rfl⟩ := require_run required
  cases here.symm.trans same
  rw [put, update_bind, update_bind, setLimit_rewind capacity] at run
  obtain ⟨rfl, rfl⟩ := pure_run run
  have changed : Sound { v' with
      heap := Function.update v'.heap buffer
        (some { Tgnet.getFreeBuffer size with buffer := b.buffer }) } :=
    sound'.put (fun l mem => absurd mem (unlisted l)) fun _ => rfl
  have served :
      (Function.update v'.heap buffer (some { Tgnet.getFreeBuffer size with buffer := b.buffer }))
        buffer =
      some { Tgnet.getFreeBuffer size with buffer := b.buffer } := Function.update_self ..
  refine ⟨⟨changed.classes, changed.distinct, changed.bounded,
    List.nodup_cons.2 ⟨unheld, changed.held_distinct⟩, ?_, ?_⟩,
    ⟨⟨_, served, ?_, ?_, ?_⟩, ⟨_, served⟩, ?_, congrArg _ held, unlisted⟩⟩
  · exact List.forall_mem_cons.2 ⟨congrArg Option.isSome served, changed.live⟩
  · exact List.forall_mem_cons.2 ⟨unlisted, changed.apart⟩
  · rw [getFreeBuffer_eq]
  · rw [getFreeBuffer_eq]
  · rw [getFreeBuffer_eq]
    exact le_byteCount size
  · rwa [← held]

/-- The class of a buffer takes it back while there is room. -/
theorem reuseFreeBuffer_run {s t : BuffersStorage} {buffer : ℕ} {u : Unit} (sound : Sound s)
    (mem : buffer ∈ s.held)
    (run : reuseFreeBuffer buffer s = some (u, t)) : Sound t := by
  rw [reuseFreeBuffer, update_bind, read_bind] at run
  obtain ⟨b, v, required, run⟩ := bind_run run
  obtain ⟨here, rfl⟩ := require_run required
  change s.heap buffer = some b at here
  have unlisted := sound.apart buffer mem
  have unheld : buffer ∉ s.held.erase buffer := sound.held_distinct.not_mem_erase
  -- the pool without the holder of the buffer
  have released : Sound { s with held := s.held.erase buffer } :=
    ⟨sound.classes, sound.distinct, sound.bounded, sound.held_distinct.erase _,
      fun other mem' => sound.live other (List.mem_of_mem_erase mem'),
      fun other mem' => sound.apart other (List.mem_of_mem_erase mem')⟩
  have deleted : Sound { s with
      held := s.held.erase buffer
      heap := Function.update s.heap buffer none } :=
    released.put (fun l mem' => absurd mem' (unlisted l)) fun mem' => absurd mem' unheld
  cases found : arrayToReuse b.capacity with
  | none =>
      simp only [found] at run
      rw [update_run run]
      exact deleted
  | some entry =>
      obtain ⟨array, maxCount⟩ := entry
      obtain ⟨capacity_eq, rfl⟩ := arrayToReuse_some found
      simp only [found] at run
      split_ifs at run with room
      · rw [update_run run]
        refine released.setFreeBuffers (fun other mem' => ?_) ?_ ?_ fun other held mem' => ?_
        · rcases List.mem_append.1 mem' with old | new
          · exact sound.classes array other old
          · rw [List.mem_singleton.1 new]
            exact ⟨b, here, capacity_eq⟩
        · exact List.nodup_append.2 ⟨sound.distinct array, by simp, fun other old other' new same =>
            unlisted array (by rwa [← List.mem_singleton.1 new, ← same])⟩
        · rw [List.length_append, List.length_singleton]
          exact room
        · rcases List.mem_append.1 mem' with old | new
          · exact released.apart other held array old
          · rw [List.mem_singleton.1 new] at held
            exact unheld held
      · rw [update_run run]
        exact deleted

theorem step_sound {s t : BuffersStorage} (sound : Sound s) (input : Input)
    (run : step input s = some ((), t)) :
    Sound t := by
  cases input with
  | getFreeBuffer size address =>
      obtain ⟨buffer, v, got, run⟩ := bind_run run
      rw [(pure_run run).2]
      exact (getFreeBuffer_run sound got).1
  | use buffer contents =>
      rw [step, read_bind] at run
      split_ifs at run with held
      · obtain ⟨b, v, required, rest⟩ := bind_run run
        obtain ⟨here, rfl⟩ := require_run required
        rw [update_run rest]
        exact sound.put (fun l mem => absurd mem (sound.apart buffer held l)) fun _ => rfl
      · cases run
  | reuseFreeBuffer buffer =>
      rw [step, read_bind] at run
      split_ifs at run with held
      · exact reuseFreeBuffer_run sound held run
      · cases run

theorem sound_of_reached {s : BuffersStorage} (reached : Reached s) : Sound s :=
  Reaches.invariant (fun _ => sound_of_started) (fun _ input _ sound _ run =>
    step_sound sound input run) reached

/-- A buffer is there for every size: a new one, at an address that is not in use, if the list is
empty. -/
theorem exists_getFreeBuffer {s : BuffersStorage} (sound : Sound s) (size : ℕ) {address : ℕ}
    (unused : s.heap address = none) :
    ∃ buffer t, getFreeBuffer size address s = some (buffer, t) := by
  have created : ∀ n, create address n s =
      some (address, { s with heap := Function.update s.heap address (some (.new n)) }) := by
    intro n
    rw [create, read_bind, if_pos unused]
    rfl
  have taken : ∃ buffer t, takeBuffer size address s = some (buffer, t) := by
    cases found : arrayToGetFrom size with
    | none =>
        have direct : takeBuffer size address s = create address size s := by
          simp only [takeBuffer, found]
        exact ⟨_, _, direct.trans (created size)⟩
    | some entry =>
        obtain ⟨array, byteCount⟩ := entry
        cases listed : s.freeBuffers array with
        | nil =>
            have direct : takeBuffer size address s = create address byteCount s := by
              simp only [takeBuffer, found, read_bind, listed]
            exact ⟨_, _, direct.trans (created byteCount)⟩
        | cons first rest =>
            refine ⟨first, { s with freeBuffers := Function.update s.freeBuffers array rest }, ?_⟩
            simp only [takeBuffer, found, read_bind, listed]
            rfl
  obtain ⟨buffer, t, take⟩ := taken
  obtain ⟨-, ⟨⟨b, here, -⟩, -⟩, -⟩ := takeBuffer_run sound take
  refine ⟨buffer, { t with
    heap := Function.update t.heap buffer (some (b.setLimit size).rewind)
    held := buffer :: t.held }, ?_⟩
  rw [getFreeBuffer, bind_apply, take]
  change (read >>= _) t = _
  rw [read_bind, here]
  rfl

/-- In every reached state the lists hold buffers of their own capacity, each once and not more than
they may, that nobody holds, and every buffer that `getFreeBuffer` returns has the position 0 and
the limit that was asked for, with room for it, and is not held by anybody else and in no list. -/
theorem pool_sound {s : BuffersStorage} (reached : Reached s) :
    Sound s ∧ ∀ size address, s.heap address = none →
      ∃ buffer t, getFreeBuffer size address s = some (buffer, t) ∧ Served s t size buffer := by
  have sound := sound_of_reached reached
  refine ⟨sound, fun size address unused => ?_⟩
  obtain ⟨buffer, t, run⟩ := exists_getFreeBuffer sound size unused
  exact ⟨buffer, t, run, (getFreeBuffer_run sound run).2⟩

/-- The pool of the process, with its first buffers at the addresses 0 to 8. -/
def freshPool : BuffersStorage := initial [0, 1, 2, 3] [4, 5, 6, 7, 8]

/-- Buffers of three sizes are taken, one of them of no class, and all of them are given back. -/
def takenAndGivenBack : List Input :=
  [.getFreeBuffer 1000 9, .getFreeBuffer 5 10, .getFreeBuffer 200000 10, .use 9 (.new 3),
    .reuseFreeBuffer 10, .reuseFreeBuffer 9, .reuseFreeBuffer 0]

/-- After that the buffer of the class of 1000 bytes is served again. -/
theorem pool_sound_givenBack :
    ∃ s, each step takenAndGivenBack freshPool = some ((), s) ∧ Sound s ∧
      ∃ t, getFreeBuffer 1100 11 s = some (9, t) ∧ Served s t 1100 9 := by
  have finishes : (each step takenAndGivenBack freshPool).isSome = true := rfl
  obtain ⟨⟨⟨⟩, s⟩, run⟩ := Option.isSome_iff_exists.1 finishes
  have reached : Reached s :=
    Reaches.each (fun _ _ _ =>
      trivial) (.start (.mk [0, 1, 2, 3] [4, 5, 6, 7, 8] rfl rfl (by decide))) run
  have unused : s.heap 11 = none := by
    have left : (each step takenAndGivenBack freshPool).map (fun after => after.2.heap 11) =
      some none := rfl
    rw [run] at left
    exact Option.some.inj left
  have taken : ((each step takenAndGivenBack freshPool).bind fun after =>
      (getFreeBuffer 1100 11 after.2).map Prod.fst) = some 9 := rfl
  obtain ⟨sound, serves⟩ := pool_sound reached
  obtain ⟨buffer, t, got, served⟩ := serves 1100 11 unused
  rw [run, Option.bind_some, got] at taken
  obtain rfl : buffer = 9 := Option.some.inj taken
  exact ⟨s, run, sound, t, got, served⟩

end BuffersStorage

end Mtproto.Tgnet
