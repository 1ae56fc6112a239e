import Mtproto.Lib.Cycle
import Mtproto.Persistence.State

/-!
# Addresses and ports

`getCurrentAddress`, `getCurrentPort`, `nextAddressOrPort` and `replaceAddresses` of
`Datacenter.cpp`.  Each of the five lists of addresses has a pair of indices; the nested tests of
the flags that pick them are `Family.ofFlags`.  A pointer into a vector is the index it was taken
at.
-/

namespace Mtproto.Datacenter

open Lib Persistence Tgnet

/-! ## Flags -/

namespace TcpAddressFlag

def ipv6 : BitVec 32 := 1
def download : BitVec 32 := 2
def cdn : BitVec 32 := 8
def static : BitVec 32 := 16
def temp : BitVec 32 := 2048

end TcpAddressFlag

def hasFlag (flags flag : BitVec 32) : Bool := flags &&& flag != 0

/-- The five lists of addresses. -/
inductive Family where
  | ipv4Temp
  | ipv4Download
  | ipv6Download
  | ipv4
  | ipv6
deriving DecidableEq, Repr

def Family.ofFlags (flags : BitVec 32) : Family :=
  if hasFlag flags TcpAddressFlag.temp then .ipv4Temp
  else if hasFlag flags TcpAddressFlag.download then
    if hasFlag flags TcpAddressFlag.ipv6 then .ipv6Download else .ipv4Download
  else if hasFlag flags TcpAddressFlag.ipv6 then .ipv6
  else .ipv4

/-- A static address has one port. -/
def isStatic (address : TcpAddress) : Bool := hasFlag address.flags TcpAddressFlag.static

def defaultPorts : List (BitVec 32) := [-1, 2045, 2045, -1]

/-! ## The state -/

/-- A vector of addresses: an index of it is a `uint32_t`. -/
structure AddressList where
  list : List TcpAddress
  length_lt : list.length < 2 ^ 32

/-- `push_back`, for which a full vector has no room. -/
def AddressList.pushBack (addresses : AddressList) (address : TcpAddress) : AddressList :=
  if room : (addresses.list ++ [address]).length < 2 ^ 32 then ⟨addresses.list ++ [address], room⟩
  else addresses

/-- The fields of a datacenter that say where to connect. -/
structure AddressBook where
  isCdnDatacenter : Bool
  authKeyPerm : Option (List UInt8)
  addresses : Family → AddressList
  currentAddressNum : Family → ℕ
  currentPortNum : Family → ℕ

namespace AddressBook

/-- The temporary addresses stand in for the others until there is a key. -/
def withTemp (d : AddressBook) (flags : BitVec 32) : BitVec 32 :=
  if flags = 0 ∧ d.authKeyPerm = none ∧ (d.addresses .ipv4Temp).list ≠ [] then
    TcpAddressFlag.temp
  else flags

def family (d : AddressBook) (flags : BitVec 32) : Family := .ofFlags (d.withTemp flags)

/-- The list that the flags select. -/
def selected (d : AddressBook) (flags : BitVec 32) : List TcpAddress :=
  (d.addresses (d.family flags)).list

def setAddressNum (d : AddressBook) (family : Family) (num : ℕ) : AddressBook :=
  { d with currentAddressNum := Function.update d.currentAddressNum family num }

def setPortNum (d : AddressBook) (family : Family) (num : ℕ) : AddressBook :=
  { d with currentPortNum := Function.update d.currentPortNum family num }

/-- The first static address, where the flags ask for one. -/
def findStatic (flags : BitVec 32) (addresses : List TcpAddress) : Option ℕ :=
  if hasFlag flags TcpAddressFlag.static then addresses.findIdx? isStatic else none

/-! ## The current address and port -/

/-- An index past the end becomes 0, also in the field. -/
def corrected (d : AddressBook) (family : Family) (addresses : List TcpAddress) (addressNum : ℕ) :
    ℕ × AddressBook :=
  if addressNum < addresses.length then (addressNum, d) else (0, d.setAddressNum family 0)

/-- `getCurrentAddress`: the index of the address, nothing for a null pointer. -/
def getCurrentAddress (flags : BitVec 32) (d : AddressBook) : Option ℕ × AddressBook :=
  let family := d.family flags
  let addresses := d.selected flags
  if addresses = [] then (none, d)
  else
    match findStatic (d.withTemp flags) addresses with
    | some num => (some num, d)
    | none =>
        let (addressNum, d) := d.corrected family addresses (d.currentAddressNum family)
        (some addressNum, d)

/-- The indices that `getCurrentPort` looks up. -/
def currentPlace (flags : BitVec 32) (d : AddressBook) : (ℕ × ℕ) × AddressBook :=
  let family := d.family flags
  let addresses := d.selected flags
  let portNum := d.currentPortNum family
  let addressNum := (findStatic (d.withTemp flags) addresses).getD (d.currentAddressNum family)
  let (addressNum, d) := d.corrected family addresses addressNum
  if portNum < 4 then ((addressNum, portNum), d)
  -- the branch of the temporary addresses stores the number of the address
  else ((addressNum, 0), d.setPortNum family (if family = .ipv4Temp then addressNum else 0))

/-- The port at two indices; nothing where one is outside its table. -/
def portAt (addresses : List TcpAddress) (place : ℕ × ℕ) : Option (BitVec 32) := do
  let address ← addresses[place.1]?
  let port ← if address.secret ≠ [] then some (-1) else defaultPorts[place.2]?
  some (if port = -1 then address.port else port)

/-- `getCurrentPort`. -/
def getCurrentPort (flags : BitVec 32) (d : AddressBook) : Option (BitVec 32) × AddressBook :=
  if d.selected flags = [] then (some 443, d)
  else (portAt (d.selected flags) (d.currentPlace flags).1, (d.currentPlace flags).2)

/-! ## Moving on -/

/-- The step of `nextAddressOrPort` on a pair of indices. -/
def nextPlace (tryNextPort : Bool) (length : ℕ) (place : ℕ × ℕ) : ℕ × ℕ :=
  if tryNextPort && decide (u32 (place.2 + 1) < 4) then (place.1, u32 (place.2 + 1))
  else (if u32 (place.1 + 1) < length then u32 (place.1 + 1) else 0, 0)

/-- `nextAddressOrPort`. -/
def nextAddressOrPort (flags : BitVec 32) (d : AddressBook) : AddressBook :=
  let family := d.family flags
  let addresses := d.selected flags
  let tryNextPort :=
    if hasFlag (d.withTemp flags) TcpAddressFlag.static then true
    else (addresses[d.currentAddressNum family]?).all fun currentAddress => !isStatic currentAddress
  let place :=
    nextPlace tryNextPort addresses.length (d.currentAddressNum family, d.currentPortNum family)
  (d.setPortNum family place.2).setAddressNum family place.1

/-- The text of the current address, empty for a null pointer. -/
def addressText (flags : BitVec 32) (d : AddressBook) : List UInt8 :=
  (((d.getCurrentAddress flags).1.bind fun num => (d.selected flags)[num]?).map (·.address)).getD []

/-- `replaceAddresses`. -/
def replaceAddresses (newAddresses : AddressList) (flags : BitVec 32) (d : AddressBook) :
    AddressBook :=
  let d := { d with isCdnDatacenter := hasFlag flags TcpAddressFlag.cdn }
  let currentAddress := d.addressText flags
  let d := (d.getCurrentAddress flags).2
  let d := { d with addresses := Function.update d.addresses (.ofFlags flags) newAddresses }
  let newAddress := d.addressText flags
  let d := (d.getCurrentAddress flags).2
  if currentAddress ≠ newAddress then d.setPortNum (.ofFlags flags) 0 else d

/-- The stored indices of a list. -/
def place (d : AddressBook) (family : Family) : ℕ × ℕ :=
  (d.currentAddressNum family, d.currentPortNum family)

/-- `addAddressAndPort`: an address that is already there is left out. -/
def addAddressAndPort (address : List UInt8) (port flags : BitVec 32) (secret : List UInt8)
    (d : AddressBook) : AddressBook :=
  let addresses := d.addresses (.ofFlags flags)
  if addresses.list.any fun known => known.address = address ∧ known.port = port then d
  else
    { d with
      addresses :=
        Function.update d.addresses (.ofFlags flags) (addresses.pushBack ⟨address, port, flags,
          secret⟩) }

/-- `resetAddressAndPortNum`, which leaves the temporary addresses out. -/
def resetAddressAndPortNum (d : AddressBook) : AddressBook :=
  { d with
    currentAddressNum := fun family => if family = .ipv4Temp then d.currentAddressNum family else 0
    currentPortNum := fun family => if family = .ipv4Temp then d.currentPortNum family else 0 }

/-- A connection attempt and the move to the next address or port. -/
def attempt (flags : BitVec 32) (d : AddressBook) : AddressBook :=
  nextAddressOrPort flags (getCurrentPort flags (getCurrentAddress flags d).2).2

end AddressBook

open AddressBook

/-! ## The stops of a rotation -/

/-- Whether the list has a static address at the index. -/
def staticAt (addresses : List TcpAddress) (num : ℕ) : Bool := (addresses[num]?).any isStatic

/-- What an attempt at a pair of indices tries: for a static address the port index does not
count. -/
def stop (addresses : List TcpAddress) (place : ℕ × ℕ) : ℕ × ℕ :=
  (place.1, if staticAt addresses place.1 then 0 else place.2)

/-- The stops at one address. -/
def stopsAt (addresses : List TcpAddress) (num : ℕ) : List (ℕ × ℕ) :=
  (List.range (if staticAt addresses num then 1 else 4)).map fun port => (num, port)

/-- The stops at the first `n` addresses. -/
def stopsBefore (addresses : List TcpAddress) (n : ℕ) : List (ℕ × ℕ) :=
  (List.range n).flatMap (stopsAt addresses)

/-- All stops in the order of the list. -/
def stops (addresses : List TcpAddress) : List (ℕ × ℕ) := stopsBefore addresses addresses.length

/-- The number of the stop for a pair of indices. -/
def stopNum (addresses : List TcpAddress) (place : ℕ × ℕ) : ℕ :=
  (stopsBefore addresses place.1).length + (stop addresses place).2

section Stops

variable {addresses : List TcpAddress} {num port : ℕ}

theorem stopsBefore_succ (addresses : List TcpAddress) (n : ℕ) :
    stopsBefore addresses (n + 1) = stopsBefore addresses n ++ stopsAt addresses n := by
  rw [stopsBefore, List.range_succ, List.flatMap_append, stopsBefore, List.flatMap_singleton]

theorem stopsBefore_prefix {m n : ℕ} (le : m ≤ n) :
    stopsBefore addresses m <+: stopsBefore addresses n := by
  induction le with
  | refl => exact List.prefix_refl _
  | step _ ih =>
    rw [stopsBefore_succ]
    exact ih.trans (List.prefix_append _ _)

theorem nodup_stops (addresses : List TcpAddress) : (stops addresses).Nodup := by
  rw [stops, stopsBefore, List.nodup_flatMap]
  constructor
  · intro num _
    apply List.nodup_range.map
    intro port port' same
    exact (Prod.mk.inj same).2
  · refine List.nodup_range.imp fun {num num'} ne => ?_
    intro place mem mem'
    obtain ⟨port, -, rfl⟩ := List.mem_map.1 mem
    obtain ⟨port', -, same⟩ := List.mem_map.1 mem'
    exact ne (Prod.mk.inj same).1.symm

theorem getElem?_stopNum (lt : num < addresses.length) (port_lt : port < 4) :
    (stops addresses)[stopNum addresses (num, port)]? = some (stop addresses (num, port)) := by
  have here : (stopsBefore addresses (num + 1))[stopNum addresses (num, port)]? =
      some (stop addresses (num, port)) := by
    rw [stopsBefore_succ, stopNum, List.getElem?_append_right (Nat.le_add_right _ _),
      Nat.add_sub_cancel_left, stopsAt, List.getElem?_map, List.getElem?_range, Option.map_some]
    · rfl
    · rw [stop]
      split_ifs <;> omega
  obtain ⟨rest, whole⟩ :
      stopsBefore addresses (num + 1) <+: stopsBefore addresses addresses.length :=
    stopsBefore_prefix (Nat.succ_le_of_lt lt)
  have inside := (List.getElem?_eq_some_iff.1 here).1
  rw [stops, ← whole, List.getElem?_append_left inside, here]

theorem stopNum_lt (lt : num < addresses.length) (port_lt : port < 4) :
    stopNum addresses (num, port) < (stops addresses).length :=
  (List.getElem?_eq_some_iff.1 (getElem?_stopNum lt port_lt)).1

end Stops

/-! ## One round -/

/-- The index of the address that is tried: a stored one past the end counts as 0. -/
def triedAddress (addresses : List TcpAddress) (place : ℕ × ℕ) : ℕ :=
  if place.1 < addresses.length then place.1 else 0

/-- The port index that is tried. -/
def triedPort (place : ℕ × ℕ) : ℕ := if place.2 < 4 then place.2 else 0

/-- The port index that an attempt stores. -/
def storedPort (temp : Bool) (addresses : List TcpAddress) (place : ℕ × ℕ) : ℕ :=
  if place.2 < 4 then place.2 else if temp then triedAddress addresses place else 0

/-- What an attempt at stored indices tries. -/
def tried (addresses : List TcpAddress) (place : ℕ × ℕ) : ℕ × ℕ :=
  stop addresses (triedAddress addresses place, triedPort place)

/-- The indices after an attempt and `nextAddressOrPort`. -/
def moved (temp : Bool) (addresses : List TcpAddress) (place : ℕ × ℕ) : ℕ × ℕ :=
  nextPlace (!staticAt addresses (triedAddress addresses place)) addresses.length
    (triedAddress addresses place, storedPort temp addresses place)

/-- A port index past the table for a temporary address that is neither static nor the first: the
number of the address is stored in its place. -/
def Misplaced (temp : Bool) (addresses : List TcpAddress) (place : ℕ × ℕ) : Prop :=
  temp = true ∧ 4 ≤ place.2 ∧ triedAddress addresses place ≠ 0 ∧
    staticAt addresses (triedAddress addresses place) = false

section Round

variable {temp : Bool} {addresses : List TcpAddress} {place : ℕ × ℕ} {num port : ℕ}

theorem triedAddress_lt (nonempty : addresses ≠ []) (place : ℕ × ℕ) :
    triedAddress addresses place < addresses.length := by
  rw [triedAddress]
  split_ifs with lt
  · exact lt
  · exact List.length_pos_iff.2 nonempty

theorem triedPort_lt (place : ℕ × ℕ) : triedPort place < 4 := by
  rw [triedPort]
  split_ifs with lt
  · exact lt
  · decide

/-- The move goes to the next stop. -/
theorem moved_next (short : addresses.length < 2 ^ 32) (lt : num < addresses.length)
    (port_lt : port < 4) :
    ∃ num' port', nextPlace (!staticAt addresses num) addresses.length (num, port) = (num', port') ∧
      num' < addresses.length ∧ port' < 4 ∧
      stopNum addresses (num', port') =
        (stopNum addresses (num, port) + 1) % (stops addresses).length := by
  have no_wrap : u32 (num + 1) = num + 1 := u32_of_lt (by omega)
  have no_wrap_port : u32 (port + 1) = port + 1 := u32_of_lt (by omega)
  rw [nextPlace]
  simp only [no_wrap, no_wrap_port, Bool.and_eq_true, Bool.not_eq_true', decide_eq_true_eq]
  by_cases another : staticAt addresses num = false ∧ port + 1 < 4
  · obtain ⟨plain, more⟩ := another
    refine ⟨num, port + 1, if_pos ⟨plain, more⟩, lt, more, ?_⟩
    have next : stopNum addresses (num, port + 1) = stopNum addresses (num, port) + 1 := by
      simp only [stopNum, stop, plain]
      rfl
    rw [← next, Nat.mod_eq_of_lt (stopNum_lt lt more)]
  · have last : (stopsBefore addresses (num + 1)).length = stopNum addresses (num, port) + 1 := by
      rw [stopsBefore_succ, List.length_append, stopNum, stopsAt, List.length_map,
        List.length_range, stop]
      cases plain : staticAt addresses num with
      | false =>
        have : port = 3 := by
          have := not_and.1 another plain
          omega
        rw [this]
        rfl
      | true => rfl
    rw [if_neg another]
    by_cases more : num + 1 < addresses.length
    · refine ⟨num + 1, 0, by rw [if_pos more], more, by decide, ?_⟩
      have first : stopNum addresses (num + 1, 0) = stopNum addresses (num, port) + 1 := by
        rw [stopNum, last, stop, ite_self, Nat.add_zero]
      rw [← first, Nat.mod_eq_of_lt (stopNum_lt more (by decide))]
    · refine ⟨0, 0, by rw [if_neg more], Nat.zero_lt_of_lt lt, by decide, ?_⟩
      have ends : num + 1 = addresses.length := by omega
      have zero : stopNum addresses (0, 0) = 0 := by
        rw [stopNum, stop, ite_self]
        rfl
      rw [zero, ← last, ends, stops, Nat.mod_self]

theorem storedPort_eq (placed : ¬ Misplaced temp addresses place) :
    staticAt addresses (triedAddress addresses place) = true ∨
      storedPort temp addresses place = triedPort place := by
  rw [storedPort, triedPort]
  split_ifs with lt isTemp
  · exact .inr rfl
  · by_cases zero : triedAddress addresses place = 0
    · exact .inr zero
    · left
      by_contra plain
      exact placed ⟨isTemp, by omega, zero, by simpa using plain⟩
  · exact .inr rfl

theorem nextPlace_port_lt (tryNextPort : Bool) (length : ℕ) (place : ℕ × ℕ) :
    (nextPlace tryNextPort length place).2 < 4 := by
  rw [nextPlace]
  by_cases more : (tryNextPort && decide (u32 (place.2 + 1) < 4)) = true
  · rw [if_pos more]
    exact of_decide_eq_true (Bool.and_eq_true_iff.1 more).2
  · rw [if_neg more]
    exact Nat.zero_lt_succ 3

theorem nextPlace_static (length : ℕ) (port' : ℕ) :
    nextPlace false length (num, port) = nextPlace false length (num, port') := by
  simp [nextPlace]

theorem moved_eq (placed : ¬ Misplaced temp addresses place) :
    moved temp addresses place =
      nextPlace (!staticAt addresses (triedAddress addresses place)) addresses.length
        (triedAddress addresses place, triedPort place) := by
  rw [moved]
  rcases storedPort_eq placed with static | same
  · rw [static]
    exact nextPlace_static _ _
  · rw [same]

/-- Indices inside their tables are tried as they are. -/
theorem tried_inside (temp : Bool) (lt : num < addresses.length) (port_lt : port < 4) :
    triedAddress addresses (num, port) = num ∧ triedPort (num, port) = port ∧
      ¬ Misplaced temp addresses (num, port) := by
  refine ⟨if_pos lt, if_pos port_lt, ?_⟩
  rintro ⟨-, outside, -⟩
  exact Nat.not_le.2 port_lt outside

theorem tried_port_zero : (tried addresses (num, 0)).2 = 0 := by
  rw [tried, stop]
  exact ite_self 0

/-- A rotation over the stored indices goes round the stops exactly if the first port index is not
misplaced. -/
theorem cycles_tried_iff (short : addresses.length < 2 ^ 32) (nonempty : addresses ≠ []) :
    Cycles (stops addresses) (fun place => some (tried addresses place))
      (moved temp addresses) place ↔
      ¬ Misplaced temp addresses place := by
  have lt := triedAddress_lt nonempty place
  have port_lt := triedPort_lt place
  constructor
  · rintro cycles ⟨isTemp, outside, ne, plain⟩
    have port_zero : triedPort place = 0 := if_neg (Nat.not_lt.2 outside)
    have next :=
      cycles.next (nodup_stops addresses) (stopNum_lt lt port_lt) (getElem?_stopNum lt port_lt).symm
    -- behind port 0 of this address comes its port 1
    obtain ⟨num, port, expected, lt', port_lt', number⟩ := moved_next short lt port_lt
    rw [← number, getElem?_stopNum lt' port_lt', Option.some_inj] at next
    have shown_port := congrArg Prod.snd next
    rw [moved, plain, Bool.not_false, nextPlace, storedPort, if_neg (Nat.not_lt.2 outside),
      if_pos isTemp] at shown_port
    rw [plain, Bool.not_false, port_zero] at expected
    obtain ⟨rfl, rfl⟩ :=
      Prod.mk.inj (expected.symm.trans (show _ = (triedAddress addresses place, 1) from rfl))
    have no_wrap : u32 (triedAddress addresses place + 1) = triedAddress addresses place + 1 :=
      u32_of_lt (by omega)
    have one : (stop addresses (triedAddress addresses place, 1)).2 = 1 := by
      rw [stop, plain]
      rfl
    rw [no_wrap, one, Bool.true_and] at shown_port
    by_cases more : triedAddress addresses place + 1 < 4
    · obtain ⟨same, same_port, -⟩ := tried_inside temp lt more
      rw [if_pos (decide_eq_true more), tried, same, same_port, stop, plain] at shown_port
      exact ne (Nat.succ.inj shown_port)
    · rw [if_neg (by simpa using more), tried_port_zero] at shown_port
      cases shown_port
  · intro placed
    refine @cycles_of_places _ _ _ _ _ (fun place i => ¬ Misplaced temp addresses place ∧
      i = stopNum addresses (triedAddress addresses place, triedPort place)) ?_ ?_ _ _
      (stopNum_lt lt port_lt) ⟨placed, rfl⟩
    · rintro place i ⟨-, rfl⟩
      exact (getElem?_stopNum (triedAddress_lt nonempty _) (triedPort_lt _)).symm
    · rintro place i ⟨placed, rfl⟩
      obtain ⟨num', port', next, lt', port_lt', number⟩ :=
        moved_next short (triedAddress_lt nonempty place) (triedPort_lt place)
      rw [moved_eq placed, next]
      obtain ⟨same, same_port, placed'⟩ := tried_inside temp lt' port_lt'
      rw [same, same_port]
      exact ⟨placed', number.symm⟩

end Round

/-! ## Rotations -/

namespace AddressBook

/-- What a connection attempt tries. -/
def visited (flags : BitVec 32) (d : AddressBook) : Option (ℕ × ℕ) :=
  (d.getCurrentAddress flags).1.map fun num =>
    stop (d.selected flags) (num, ((d.getCurrentAddress flags).2.currentPlace flags).1.2)

/-- Neither lookup goes past its table, whether or not the other one came first. -/
structure InRange (flags : BitVec 32) (d : AddressBook) : Prop where
  address : ∃ num < (d.selected flags).length, (d.getCurrentAddress flags).1 = some num
  port : (d.getCurrentPort flags).1.isSome = true
  port_after : ((d.getCurrentAddress flags).2.getCurrentPort flags).1.isSome = true

/-- Stores a pair of indices. -/
def store (d : AddressBook) (family : Family) (place : ℕ × ℕ) : AddressBook :=
  (d.setPortNum family place.2).setAddressNum family place.1

/-- Whether the flags select the temporary addresses. -/
def isTemp (d : AddressBook) (flags : BitVec 32) : Bool := d.family flags = .ipv4Temp

section Plain

variable {flags : BitVec 32} {d : AddressBook} {family : Family} {place place' : ℕ × ℕ}

@[simp] theorem place_store : (d.store family place).place family = place := by
  simp [AddressBook.place, store, setPortNum, setAddressNum]

@[simp] theorem store_store :
    (d.store family place).store family place' = d.store family place' := by
  simp [store, setPortNum, setAddressNum]

@[simp] theorem store_place : d.store family (d.place family) = d := by
  simp [AddressBook.place, store, setPortNum, setAddressNum]

theorem store_setPortNum (num : ℕ) :
    (d.store family place).setPortNum family num = d.store family (place.1, num) := by
  simp [store, setPortNum, setAddressNum]

@[simp] theorem withTemp_store : (d.store family place).withTemp flags = d.withTemp flags := rfl

@[simp] theorem family_store : (d.store family place).family flags = d.family flags := rfl

@[simp] theorem selected_store : (d.store family place).selected flags = d.selected flags := rfl

@[simp] theorem currentAddressNum_store :
    (d.store family place).currentAddressNum family = place.1 :=
  congrArg Prod.fst place_store

@[simp] theorem currentPortNum_store : (d.store family place).currentPortNum family = place.2 :=
  congrArg Prod.snd place_store

theorem corrected_store (addresses : List TcpAddress) :
    (d.store family place).corrected family addresses place.1 =
      (triedAddress addresses place, d.store family (triedAddress addresses place, place.2)) := by
  rw [corrected, triedAddress]
  split_ifs with lt
  · rfl
  · simp [store, setPortNum, setAddressNum]

theorem static_withTemp (plain : hasFlag flags TcpAddressFlag.static = false) (d : AddressBook) :
    hasFlag (d.withTemp flags) TcpAddressFlag.static = false := by
  rw [withTemp]
  split_ifs
  · decide
  · exact plain

theorem findStatic_plain (plain : hasFlag flags TcpAddressFlag.static = false)
    (addresses : List TcpAddress) :
    findStatic (d.withTemp flags) addresses = none := by
  rw [findStatic, static_withTemp plain]
  rfl

variable (plain : hasFlag flags TcpAddressFlag.static = false) (nonempty : d.selected flags ≠ [])

include plain nonempty in
theorem getCurrentAddress_store (place : ℕ × ℕ) :
    (d.store (d.family flags) place).getCurrentAddress flags =
      (some (triedAddress (d.selected flags) place),
        d.store (d.family flags) (triedAddress (d.selected flags) place, place.2)) := by
  simp only [getCurrentAddress, selected_store, family_store, withTemp_store, if_neg nonempty,
    findStatic_plain plain, currentAddressNum_store, corrected_store]

include plain in
theorem currentPlace_store (place : ℕ × ℕ) :
    (d.store (d.family flags) place).currentPlace flags =
      ((triedAddress (d.selected flags) place, triedPort place),
        d.store (d.family flags) (triedAddress (d.selected flags) place,
          storedPort (d.isTemp flags) (d.selected flags) place)) := by
  simp only [currentPlace, selected_store, family_store, withTemp_store, findStatic_plain plain,
    Option.getD_none,
    currentAddressNum_store, currentPortNum_store, corrected_store, triedPort, storedPort, isTemp,
      decide_eq_true_eq]
  split_ifs with lt temp
  · rfl
  · rw [store_setPortNum]
  · rw [store_setPortNum]

include plain in
theorem nextAddressOrPort_store (place : ℕ × ℕ) (lt : place.1 < (d.selected flags).length) :
    (d.store (d.family flags) place).nextAddressOrPort flags =
      d.store (d.family flags)
        (nextPlace (!staticAt (d.selected flags) place.1) (d.selected flags).length place) := by
  have inside : (d.selected flags)[place.1]? = some (d.selected flags)[place.1] :=
    List.getElem?_eq_getElem lt
  simp only [nextAddressOrPort, selected_store, family_store, withTemp_store, static_withTemp plain,
    currentAddressNum_store, currentPortNum_store, staticAt, inside, Option.all_some,
      Option.any_some]
  exact store_store

include nonempty in
theorem getCurrentPort_store (place : ℕ × ℕ) :
    (d.store (d.family flags) place).getCurrentPort flags =
      (portAt (d.selected flags) ((d.store (d.family flags) place).currentPlace flags).1,
        ((d.store (d.family flags) place).currentPlace flags).2) := by
  rw [getCurrentPort, selected_store, if_neg nonempty]

theorem triedAddress_idem (addresses : List TcpAddress) (port : ℕ) (nonempty : addresses ≠ []) :
    triedAddress addresses (triedAddress addresses place, port) = triedAddress addresses place :=
  if_pos (triedAddress_lt nonempty place)

include plain nonempty in
/-- An attempt moves the indices of the selected list. -/
theorem attempt_store (place : ℕ × ℕ) :
    (d.store (d.family flags) place).attempt flags =
      d.store (d.family flags) (moved (d.isTemp flags) (d.selected flags) place) := by
  have same_port :
      storedPort (d.isTemp flags) (d.selected flags) (triedAddress (d.selected flags) place,
        place.2) =
      storedPort (d.isTemp flags) (d.selected flags) place := by
    rw [storedPort, storedPort, triedAddress_idem _ _ nonempty]
  rw [attempt, getCurrentAddress_store plain nonempty, getCurrentPort_store nonempty,
    currentPlace_store plain, triedAddress_idem _ _ nonempty, same_port]
  exact nextAddressOrPort_store plain _ (triedAddress_lt nonempty place)

include plain nonempty in
theorem visited_store (place : ℕ × ℕ) :
    (d.store (d.family flags) place).visited flags = some (tried (d.selected flags) place) := by
  rw [visited, getCurrentAddress_store plain nonempty, currentPlace_store plain]
  rfl

theorem portAt_isSome {addresses : List TcpAddress} {num port : ℕ} (lt : num < addresses.length)
    (port_lt : port < 4) : (portAt addresses (num, port)).isSome = true := by
  have inside : addresses[num]? = some addresses[num] := List.getElem?_eq_getElem lt
  have table : defaultPorts[port]? = some defaultPorts[port] := List.getElem?_eq_getElem port_lt
  rw [portAt, inside, table]
  by_cases secret : addresses[num].secret = []
  · simp [secret]
  · simp [secret]

include plain nonempty in
theorem inRange_plain : d.InRange flags := by
  have lt := triedAddress_lt nonempty (d.place (d.family flags))
  have looked := getCurrentAddress_store plain nonempty (d.place (d.family flags))
  have port : ∀ place : ℕ × ℕ, ((d.store (d.family flags) place).getCurrentPort flags).1.isSome =
      true := by
    intro place
    rw [getCurrentPort_store nonempty, currentPlace_store plain]
    exact portAt_isSome (triedAddress_lt nonempty place) (triedPort_lt place)
  rw [store_place] at looked
  refine ⟨⟨_, lt, congrArg Prod.fst looked⟩, ?_, ?_⟩
  · have here := port (d.place (d.family flags))
    rwa [store_place] at here
  · rw [looked]
    exact port _

end Plain

/-- The lookups stay in range, and the attempts go round all stops. -/
def Rotates (flags : BitVec 32) (d : AddressBook) : Prop :=
  (∀ k, InRange flags ((attempt flags)^[k] d)) ∧
    Cycles (stops (d.selected flags)) (visited flags) (attempt flags) d

theorem rotates_iff {flags : BitVec 32} (plain : hasFlag flags TcpAddressFlag.static = false)
    {d : AddressBook}
    (nonempty : d.selected flags ≠ []) :
    d.Rotates flags ↔
      ¬ Misplaced (d.isTemp flags) (d.selected flags) (d.place (d.family flags)) := by
  have steps :
    Function.Semiconj (d.store (d.family flags)) (moved (d.isTemp flags) (d.selected flags))
      (attempt flags) := fun place => (attempt_store plain nonempty place).symm
  have cycles : Cycles (stops (d.selected flags)) (visited flags) (attempt flags)
      (d.store (d.family flags) (d.place (d.family flags))) ↔
        ¬ Misplaced (d.isTemp flags) (d.selected flags) (d.place (d.family flags)) :=
    (cycles_congr steps (visited_store plain nonempty) _).trans
      (cycles_tried_iff (d.addresses (d.family flags)).length_lt nonempty)
  rw [store_place] at cycles
  rw [Rotates, cycles]
  apply and_iff_right
  intro k
  have moves := (steps.iterate_right k).eq (d.place (d.family flags))
  rw [store_place] at moves
  rw [← moves]
  exact inRange_plain plain nonempty

/-! ### The life of a datacenter -/

/-- A datacenter as it is constructed: the indices of the temporary addresses are 0, the others are
whatever the file on the disk says. -/
def Constructed (d : AddressBook) : Prop := d.place .ipv4Temp = (0, 0)

/-- What the program does with the addresses and their indices. -/
inductive Op where
  | getCurrentAddress (flags : BitVec 32)
  | getCurrentPort (flags : BitVec 32)
  | nextAddressOrPort (flags : BitVec 32)
  | addAddressAndPort (address : List UInt8) (port flags : BitVec 32) (secret : List UInt8)
  | replaceAddresses (newAddresses : AddressList) (flags : BitVec 32)
  | resetAddressAndPortNum
  | setAuthKeyPerm (authKeyPerm : Option (List UInt8))

def perform (d : AddressBook) : Op → AddressBook
  | .getCurrentAddress flags => (d.getCurrentAddress flags).2
  | .getCurrentPort flags => (d.getCurrentPort flags).2
  | .nextAddressOrPort flags => d.nextAddressOrPort flags
  | .addAddressAndPort address port flags secret => d.addAddressAndPort address port flags secret
  | .replaceAddresses newAddresses flags => d.replaceAddresses newAddresses flags
  | .resetAddressAndPortNum => d.resetAddressAndPortNum
  | .setAuthKeyPerm authKeyPerm => { d with authKeyPerm := authKeyPerm }

/-- The state after one operation after another. -/
def after (d : AddressBook) (ops : List Op) : AddressBook := ops.foldl perform d

/-- The port index of the temporary addresses is inside the table. -/
def TempInside (d : AddressBook) : Prop := d.currentPortNum .ipv4Temp < 4

section TempInside

variable {flags : BitVec 32} {d : AddressBook}

theorem Constructed.tempInside (constructed : d.Constructed) : d.TempInside := by
  have zero : d.currentPortNum .ipv4Temp = 0 := congrArg Prod.snd constructed
  rw [TempInside, zero]
  decide

theorem TempInside.setPortNum (inside : d.TempInside) (family : Family) {num : ℕ}
    (lt : family = .ipv4Temp → num < 4) : (d.setPortNum family num).TempInside := by
  change Function.update d.currentPortNum family num .ipv4Temp < 4
  by_cases same : family = .ipv4Temp
  · subst same
    rw [Function.update_self]
    exact lt rfl
  · rw [Function.update_of_ne (Ne.symm same)]
    exact inside

theorem TempInside.corrected (inside : d.TempInside) (family : Family) (addresses : List TcpAddress)
    (num : ℕ) : (d.corrected family addresses num).2.TempInside := by
  rw [AddressBook.corrected]
  split_ifs
  · exact inside
  · exact inside

theorem TempInside.getCurrentAddress (inside : d.TempInside) (flags : BitVec 32) :
    (d.getCurrentAddress flags).2.TempInside := by
  rw [AddressBook.getCurrentAddress]
  split_ifs
  · exact inside
  · cases findStatic (d.withTemp flags) (d.selected flags) with
    | some num => exact inside
    | none => exact inside.corrected _ _ _

/-- The branch that would store the number of an address is not taken. -/
theorem TempInside.getCurrentPort (inside : d.TempInside) (flags : BitVec 32) :
    (d.getCurrentPort flags).2.TempInside := by
  rw [AddressBook.getCurrentPort]
  split_ifs with empty
  · exact inside
  · simp only [currentPlace]
    by_cases lt : d.currentPortNum (d.family flags) < 4
    · rw [if_pos lt]
      exact inside.corrected _ _ _
    · rw [if_neg lt]
      apply (inside.corrected _ _ _).setPortNum
      intro temp
      rw [temp] at lt
      exact absurd inside lt

theorem TempInside.nextAddressOrPort (inside : d.TempInside) (flags : BitVec 32) :
    (d.nextAddressOrPort flags).TempInside := by
  apply inside.setPortNum
  exact fun _ => nextPlace_port_lt _ _ _

theorem TempInside.addAddressAndPort (inside : d.TempInside) (address : List UInt8)
    (port flags : BitVec 32) (secret : List UInt8) :
    (d.addAddressAndPort address port flags secret).TempInside := by
  rw [AddressBook.addAddressAndPort]
  split_ifs
  · exact inside
  · exact inside

theorem TempInside.replaceAddresses (inside : d.TempInside) (newAddresses : AddressList)
    (flags : BitVec 32) : (d.replaceAddresses newAddresses flags).TempInside := by
  have before : TempInside { d with isCdnDatacenter := hasFlag flags TcpAddressFlag.cdn } := inside
  have looked := before.getCurrentAddress flags
  have again : ∀ addresses, TempInside
      { ({ d with isCdnDatacenter := hasFlag flags TcpAddressFlag.cdn } :
          AddressBook).getCurrentAddress flags |>.2 with addresses := addresses } := fun _ => looked
  simp only [AddressBook.replaceAddresses]
  split_ifs
  · exact ((again _).getCurrentAddress flags).setPortNum _ fun _ => by decide
  · exact (again _).getCurrentAddress flags

/-- One operation leaves the port index of the temporary addresses inside the table. -/
theorem TempInside.perform (inside : d.TempInside) (op : Op) : (d.perform op).TempInside := by
  cases op with
  | getCurrentAddress flags => exact inside.getCurrentAddress flags
  | getCurrentPort flags => exact inside.getCurrentPort flags
  | nextAddressOrPort flags => exact inside.nextAddressOrPort flags
  | addAddressAndPort address port flags secret =>
      exact inside.addAddressAndPort address port flags secret
  | replaceAddresses newAddresses flags => exact inside.replaceAddresses newAddresses flags
  | resetAddressAndPortNum => exact inside
  | setAuthKeyPerm authKeyPerm => exact inside

theorem TempInside.after (inside : d.TempInside) (ops : List Op) : (d.after ops).TempInside := by
  induction ops generalizing d with
  | nil => exact inside
  | cons op rest ih => exact ih (inside.perform op)

theorem TempInside.placed (inside : d.TempInside) :
    ¬ Misplaced (d.isTemp flags) (d.selected flags) (d.place (d.family flags)) := by
  rintro ⟨temp, outside, -⟩
  rw [AddressBook.place, of_decide_eq_true temp] at outside
  exact Nat.not_le.2 inside outside

end TempInside

end AddressBook

/-- Whatever indices a datacenter loaded and whatever happened to its addresses since, the lookups
stay in range and attempts go round every port of every address, a static one once. -/
theorem rotates_after {d : AddressBook} (constructed : d.Constructed) (ops : List Op)
    {flags : BitVec 32} (plain : hasFlag flags TcpAddressFlag.static = false)
    (nonempty : (d.after ops).selected flags ≠ []) : (d.after ops).Rotates flags :=
  (AddressBook.rotates_iff plain nonempty).2 (constructed.tempInside.after ops).placed

/-- Two addresses without flags, for every family. -/
def twoAddresses : AddressList := ⟨[⟨[49], 443, 0, []⟩, ⟨[50], 443, 0, []⟩], by decide⟩

/-- A client without a key, whose file has indices that are past the ends. -/
def freshBook : AddressBook where
  isCdnDatacenter := false
  authKeyPerm := none
  addresses _ := twoAddresses
  currentAddressNum family := if family = .ipv4Temp then 0 else 7
  currentPortNum family := if family = .ipv4Temp then 0 else 9

/-- The client tries two temporary addresses, gets a shorter list of IPv6 addresses, one more of
them that is static, and a key. -/
def laterOps : List Op :=
  [.getCurrentAddress 0, .getCurrentPort 0, .nextAddressOrPort 0,
    .replaceAddresses ⟨[⟨[51], 443, 0, []⟩], by decide⟩ 1, .addAddressAndPort [52] 443 17 [],
    .setAuthKeyPerm (some [1])]

theorem rotates_after_later : (freshBook.after laterOps).Rotates TcpAddressFlag.ipv6 :=
  rotates_after (show freshBook.place .ipv4Temp = (0, 0) from rfl) laterOps (by decide) (by decide)

end Mtproto.Datacenter
