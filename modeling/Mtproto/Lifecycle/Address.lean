import Mtproto.Lifecycle.Wires

/-!
# The address that is dialled

`currentAddressFlags` is without `TcpAddressFlagIpv6`, so `nextAddressOrPort` moves on in the lists
of IPv4 only.  A line that dials an IPv6 address dials the same one for ever, however often it fails
(`ipv6_never_rotates`).
-/

namespace Mtproto.Lifecycle

open Lib Program Tgnet Persistence Datacenter AddressBook

/-! ## The lists of IPv6 -/

section Lists

variable {family : Family} {d₀ d : AddressBook} {flags : BitVec 32}

/-- The two lists of IPv6. -/
def Family.IsIpv6 (family : Family) : Prop := family = .ipv6 ∨ family = .ipv6Download

theorem family_ne (isIpv6 : Family.IsIpv6 family)
    (without : hasFlag flags TcpAddressFlag.ipv6 = false) (d : AddressBook) :
    d.family flags ≠ family := by
  have temp : hasFlag TcpAddressFlag.temp TcpAddressFlag.ipv6 = false := by decide
  have without : hasFlag (d.withTemp flags) TcpAddressFlag.ipv6 = false := by
    rw [withTemp]
    split_ifs
    · exact temp
    · exact without
  rw [AddressBook.family, Family.ofFlags, without]
  rcases isIpv6 with rfl | rfl <;> split_ifs <;> simp_all

/-- The lists are the same, and the index of the family is. -/
structure Stays (family : Family) (d₀ d : AddressBook) : Prop where
  addresses : d.addresses = d₀.addresses
  num : d.currentAddressNum family = d₀.currentAddressNum family

variable (inRange : d₀.currentAddressNum family < (d₀.addresses family).list.length)

theorem Stays.setPortNum (stays : Stays family d₀ d) (other : Family) (num : ℕ) :
    Stays family d₀ (d.setPortNum other num) := ⟨stays.addresses, stays.num⟩

theorem Stays.setAddressNum (stays : Stays family d₀ d) {other : Family} (ne : other ≠ family)
    (num : ℕ) :
    Stays family d₀ (d.setAddressNum other num) :=
  ⟨stays.addresses, (Function.update_of_ne ne.symm _ _).trans stays.num⟩

/-- A correction of another family leaves this one alone. -/
theorem Stays.corrected (stays : Stays family d₀ d) {other : Family} (ne : other ≠ family)
    (addresses : List TcpAddress)
    (num : ℕ) : Stays family d₀ (d.corrected other addresses num).2 := by
  rw [AddressBook.corrected]
  split_ifs
  · exact stays
  · exact stays.setAddressNum ne 0

include inRange in
theorem Stays.getCurrentAddress (stays : Stays family d₀ d) (flags : BitVec 32) :
    Stays family d₀ (d.getCurrentAddress flags).2 := by
  rw [AddressBook.getCurrentAddress]
  split_ifs
  · exact stays
  · split
    · exact stays
    · by_cases same : d.family flags = family
      · have here : d.currentAddressNum (d.family flags) < (d.selected flags).length := by
          rw [selected, same, stays.addresses, stays.num]
          exact inRange
        rw [AddressBook.corrected, if_pos here]
        exact stays
      · exact stays.corrected same _ _

theorem Stays.getCurrentPort (stays : Stays family d₀ d) (isIpv6 : Family.IsIpv6 family)
    (without : hasFlag flags TcpAddressFlag.ipv6 = false) :
    Stays family d₀ (d.getCurrentPort flags).2 := by
  have ne := family_ne isIpv6 without d
  rw [AddressBook.getCurrentPort]
  split
  · exact stays
  · simp only [currentPlace]
    split
    · exact stays.corrected ne _ _
    · exact (stays.corrected ne _ _).setPortNum _ _

theorem Stays.nextAddressOrPort (stays : Stays family d₀ d) (isIpv6 : Family.IsIpv6 family)
    (without : hasFlag flags TcpAddressFlag.ipv6 = false) :
    Stays family d₀ (d.nextAddressOrPort flags) :=
  (stays.setPortNum _ _).setAddressNum (family_ne isIpv6 without d) _

end Lists

/-! ## Lines -/

section Lines

variable {crypto : Tgnet.Crypto} {w : World} {l : Line} {family : Family} {d₀ : AddressBook}

/-- The flags are those of IPv4, and the index of the family has stayed. -/
structure Fixed (family : Family) (d₀ : AddressBook) (l : Line) : Prop where
  without : hasFlag l.currentAddressFlags TcpAddressFlag.ipv6 = false
  stays : Stays family d₀ l.addresses

theorem Fixed.congr {l' : Line} (fixed : Fixed family d₀ l)
    (flags : l'.currentAddressFlags = l.currentAddressFlags)
    (addresses : l'.addresses = l.addresses) : Fixed family d₀ l' :=
  ⟨flags ▸ fixed.without, addresses ▸ fixed.stays⟩

variable (isIpv6 : Family.IsIpv6 family)

include isIpv6

theorem Fixed.countFailure (fixed : Fixed family d₀ l) (switchToNextPort : Bool) :
    Fixed family d₀ (l.countFailure w switchToNextPort) := by
  simp only [Line.countFailure]
  split_ifs <;>
    first
    | exact fixed.congr rfl rfl
    | exact ⟨fixed.without, fixed.stays.nextAddressOrPort isIpv6 fixed.without⟩

omit isIpv6 in
theorem Fixed.armTimer (fixed : Fixed family d₀ l) (error : ℤ) :
    Fixed family d₀ (l.armTimer w error) := by
  simp only [Line.armTimer]
  split_ifs <;> exact fixed.congr rfl rfl

theorem Fixed.closeSocket (fixed : Fixed family d₀ l) (reason error : ℤ) :
    Fixed family d₀ (l.closeSocket w reason error) := by
  simp only [Line.closeSocket, Line.onDisconnected]
  split
  · exact fixed.congr rfl rfl
  · refine Fixed.congr (Fixed.armTimer (w := w) (Fixed.countFailure (w := w) isIpv6 ?_ _) error)
      rfl rfl
    exact fixed.congr rfl rfl

theorem Fixed.suspendConnection (fixed : Fixed family d₀ l) (idle : Bool) :
    Fixed family d₀ (l.suspendConnection w idle) := by
  simp only [Line.suspendConnection]
  split
  · exact fixed.congr rfl rfl
  · refine Fixed.congr (Fixed.closeSocket (w := w) isIpv6 ?_ 0 0) rfl rfl
    exact fixed.congr rfl rfl

theorem Fixed.openConnection (fixed : Fixed family d₀ l) :
    Fixed family d₀ (l.openConnection w) := by
  simp only [Line.openConnection]
  split
  · exact fixed.congr rfl rfl
  · exact fixed.closeSocket isIpv6 1 (-1)

omit isIpv6 in
/-- Under flags of IPv4, each with or without IPv6, the address is looked up and the index stays. -/
theorem findAddress_spec (inRange : d₀.currentAddressNum family < (d₀.addresses family).list.length)
    {choices : List (BitVec 32 × BitVec 32)}
    (choices_without : ∀ choice ∈ choices, hasFlag choice.1 TcpAddressFlag.ipv6 = false) :
    ∀ {flags : BitVec 32} {d : AddressBook}, hasFlag flags TcpAddressFlag.ipv6 = false →
      Stays family d₀ d →
      hasFlag (Line.findAddress choices flags d).2.1 TcpAddressFlag.ipv6 = false ∧
        Stays family d₀ (Line.findAddress choices flags d).2.2 := by
  induction choices with
  | nil => exact fun without stays => ⟨without, stays⟩
  | cons choice choices ih =>
      intro flags d without stays
      have here := choices_without choice List.mem_cons_self
      have looked := stays.getCurrentAddress inRange (choice.1 ||| choice.2)
      rw [Line.findAddress, Line.currentAddress]
      split
      · rename_i found
        rw [← (Prod.mk.inj found).2]
        exact ⟨here, looked⟩
      · rename_i found
        rw [← (Prod.mk.inj found).2]
        exact ih (fun other mem => choices_without other (List.mem_cons_of_mem _ mem)) here looked

omit isIpv6 in
theorem addressFlags_without (w : World) (l : Line) :
    ∀ choice ∈ l.addressFlags w, hasFlag choice.1 TcpAddressFlag.ipv6 = false := by
  simp only [Line.addressFlags, TcpAddressFlag.static, TcpAddressFlag.download, TcpAddressFlag.temp]
  split_ifs <;> simp [hasFlag, TcpAddressFlag.ipv6]

variable (inRange : d₀.currentAddressNum family < (d₀.addresses family).list.length)

include inRange

theorem Fixed.chooseAddress (fixed : Fixed family d₀ l) : Fixed family d₀ (l.chooseAddress w) := by
  obtain ⟨without, stays⟩ :=
    findAddress_spec inRange (addressFlags_without w l) fixed.without fixed.stays
  have port := stays.getCurrentPort isIpv6 without
  simp only [Line.chooseAddress]
  split
  · refine ⟨without, ?_⟩
    dsimp only
    split_ifs
    · exact stays
    · exact port
  · exact ⟨without, port⟩

theorem Fixed.connect (fixed : Fixed family d₀ l) : Fixed family d₀ (l.connect w) := by
  simp only [Line.connect]
  split_ifs
  · exact fixed
  · exact fixed
  · exact Fixed.openConnection isIpv6 ((fixed.chooseAddress isIpv6 inRange).congr rfl rfl)

theorem Fixed.step {l' : Line} (fixed : Fixed family d₀ l) {i : Input}
    (run : step crypto (w, i) l = some ((), l')) :
    Fixed family d₀ l' := by
  cases i with
  | connect =>
      cases run
      exact fixed.connect isIpv6 inRange
  | suspendConnection idle =>
      cases run
      exact fixed.suspendConnection isIpv6 idle
  | reconnect =>
      cases run
      rw [Line.reconnect]
      split
      · exact fixed.suspendConnection isIpv6 false
      · have forced : Fixed family d₀ { l with forceNextPort := true } := fixed.congr rfl rfl
        exact (forced.suspendConnection isIpv6 true).connect isIpv6 inRange
  | closeSocket reason error =>
      cases run
      exact fixed.closeSocket isIpv6 reason error
  | onReconnectTimer =>
      simp only [Lifecycle.step] at run
      split at run
      · cases run
        have stopped :
            Fixed family d₀
              { l with reconnectTimer := l.reconnectTimer.stop, waitForReconnectTimer := false } :=
          fixed.congr rfl rfl
        exact stopped.connect isIpv6 inRange
      · cases run
  | sendData s =>
      cases run
      have connected : Fixed family d₀ (l.connected w) := by
        rw [Line.connected]
        split
        · exact fixed.connect isIpv6 inRange
        · exact fixed
      simp only [Line.sendData]
      split
      · exact connected
      · exact connected.congr rfl rfl
  | setHasUsefullData =>
      cases run
      rw [Line.setHasUsefullData]
      split <;> exact fixed.congr rfl rfl
  | setProxySettings proxyAddress proxySecret =>
      cases run
      have changed :
          Fixed family d₀
            { l with connection := { l.connection with proxyAddress, proxySecret } } :=
        fixed.congr rfl rfl
      simp only [Line.setProxySettings]
      split
      · exact changed
      · exact changed.suspendConnection isIpv6 false
  | setOverrideProxy overrideProxyAddress overrideProxySecret =>
      cases run
      exact fixed.congr rfl rfl
  | onConnected | write | negotiate | onReceived =>
      simp only [Lifecycle.step] at run
      split at run
      · cases run
      · cases run
        exact fixed.congr rfl rfl

end Lines

/-- Opening a socket, or failing to, leaves the address that has been chosen. -/
theorem hostAddress_closeSocket (w : World) (l : Line) (reason error : ℤ) :
    (l.closeSocket w reason error).hostAddress = l.hostAddress := by
  have counted (l : Line) (switchToNextPort : Bool) :
      (l.countFailure w switchToNextPort).hostAddress = l.hostAddress := by
    simp only [Line.countFailure]
    split_ifs <;> rfl
  have set (l : Line) : (l.armTimer w error).hostAddress = l.hostAddress := by
    simp only [Line.armTimer]
    split_ifs <;> rfl
  simp only [Line.closeSocket, Line.onDisconnected]
  split
  · rfl
  · exact (set _).trans (counted _ _)

/-- The current address of IPv6. -/
theorem currentAddress_ipv6 {d : AddressBook} {a : TcpAddress}
    (current : (d.addresses .ipv6).list[d.currentAddressNum .ipv6]? = some a) :
    (Line.currentAddress (0 ||| TcpAddressFlag.ipv6) d).1 = some a := by
  have withTemp : d.withTemp (0 ||| TcpAddressFlag.ipv6) = TcpAddressFlag.ipv6 := by
    rw [AddressBook.withTemp, if_neg (fun temp => absurd temp.1 (by decide))]
    rfl
  have family : d.family (0 ||| TcpAddressFlag.ipv6) = .ipv6 := by
    rw [AddressBook.family, withTemp]
    decide
  have selected : d.selected (0 ||| TcpAddressFlag.ipv6) =
    (d.addresses .ipv6).list := by rw [selected, family]
  have static : findStatic TcpAddressFlag.ipv6 (d.addresses .ipv6).list = none := by
    rw [findStatic, if_neg (by decide)]
  obtain ⟨inside, -⟩ := List.getElem?_eq_some_iff.1 current
  have nonempty : (d.addresses .ipv6).list ≠ [] :=
    List.ne_nil_of_length_pos (Nat.zero_lt_of_lt inside)
  have num : (d.getCurrentAddress (0 ||| TcpAddressFlag.ipv6)).1 =
      some (d.currentAddressNum .ipv6) := by
    rw [AddressBook.getCurrentAddress]
    simp only [withTemp, family, selected, static, if_neg nonempty, AddressBook.corrected,
      if_pos inside]
  rw [Line.currentAddress, num, selected]
  exact current

/-- In every state that a line reaches from one whose current IPv6 address is `a`, whatever has
failed before, the next attempt that is made with IPv6 goes to `a`. -/
theorem ipv6_never_rotates {crypto : Tgnet.Crypto} {w : World} {l₀ l : Line} {a : TcpAddress}
    (without : hasFlag l₀.currentAddressFlags TcpAddressFlag.ipv6 = false)
    (current : (l₀.addresses.addresses .ipv6).list[l₀.addresses.currentAddressNum .ipv6]? = some a)
    (reached : Reaches (step crypto) (· = l₀) (fun _ _ => True) l)
    (enabled : w.isIpv6Enabled = true)
    (available : w.isNetworkAvailable = true) (free : l.waitForReconnectTimer = false)
    (down : ¬ (l.connection.connectionState = .Connected ∨
      l.connection.connectionState = .Connecting))
    (direct : l.connection.proxyAddress = [])
    (type : l.connection.connectionType = .Generic ∨ l.connection.connectionType = .Upload ∨
      l.connection.connectionType = .Push) :
    (l.connect w).hostAddress = a.address := by
  have inRange := (List.getElem?_eq_some_iff.1 current).1
  have isIpv6 : Family.IsIpv6 .ipv6 := .inl rfl
  have fixed : Fixed .ipv6 l₀.addresses l := by
    refine reached.invariant ?_ fun _ i _ fixed _ run =>
      fixed.step (w := i.1) (i := i.2) isIpv6 inRange run
    rintro _ rfl
    exact ⟨without, rfl, rfl⟩
  have stays : (l.addresses.addresses .ipv6).list[l.addresses.currentAddressNum .ipv6]? =
      some a := by
    rw [fixed.stays.addresses, fixed.stays.num]
    exact current
  obtain ⟨rest, flags⟩ : ∃ rest, l.addressFlags w = (0, TcpAddressFlag.ipv6) :: rest := by
    rcases type with type | type | type <;> simp [Line.addressFlags, enabled, direct, type]
  have found : (Line.findAddress (l.addressFlags w) l.currentAddressFlags l.addresses).1 =
      some a := by
    have looked := currentAddress_ipv6 stays
    rw [flags, Line.findAddress]
    split
    · rename_i here
      rw [here] at looked
      exact looked
    · rename_i here
      rw [here] at looked
      cases looked
  have host : (l.chooseAddress w).hostAddress = a.address := by
    simp only [Line.chooseAddress, found]
  simp only [Line.connect]
  rw [if_neg (by simp [free, available]), if_neg down]
  simp only [Line.openConnection]
  split
  · exact host
  · rw [hostAddress_closeSocket]
    exact host

def ipv6Address (host : UInt8) : TcpAddress := ⟨[host], 443, 1, []⟩

/-- A line with two addresses of IPv6. -/
def ipv6Line : Line where
  connection := { plainConnection with connectionState := .Idle, socketFd := -1 }
  addresses :=
    ⟨false, none, fun family =>
      ⟨if family = .ipv6 then [ipv6Address 1, ipv6Address 2] else [], by split <;> decide⟩,
      fun _ => 0, fun _ => 0⟩

def ipv6World : World := { plainWorld with isIpv6Enabled := true }

/-- Two attempts fail. -/
def failedTwice : Line :=
  (((ipv6Line.connect ipv6World).closeSocket ipv6World 2 0).connect ipv6World).closeSocket ipv6World
    2 0

theorem ipv6_never_rotates_failedTwice : (failedTwice.connect ipv6World).hostAddress = [1] := by
  have start : Reaches (step countingCrypto) (· = ipv6Line) (fun _ _ => True) ipv6Line := .start rfl
  have first := Reaches.step start (i := (ipv6World, Input.connect)) trivial rfl
  have lost := Reaches.step first (i := (ipv6World, Input.closeSocket 2 0)) trivial rfl
  have second := Reaches.step lost (i := (ipv6World, Input.connect)) trivial rfl
  have twice : Reaches (step countingCrypto) (· = ipv6Line) (fun _ _ => True) failedTwice :=
    Reaches.step second (i := (ipv6World, Input.closeSocket 2 0)) trivial rfl
  exact ipv6_never_rotates (a := ipv6Address 1) (by decide)
    (by decide) twice rfl rfl rfl (by decide) rfl (.inl rfl)

end Mtproto.Lifecycle
