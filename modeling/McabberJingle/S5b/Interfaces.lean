import McabberJingle.S5b.Transport
import McabberJingle.Socks5.Messages

/-! s5b.c: the addresses of this computer, which its candidates are made of. -/

namespace McabberJingle.S5b

open Socks5 (GInetAddress)

-----------------------------------------------------------------------------------------
-- Interfaces
-----------------------------------------------------------------------------------------

/-- A `struct sockaddr`; the families other than AF_INET and AF_INET6 are not told apart. -/
inductive SockAddr where
  | inet (addr : Vector UInt8 4)
  | inet6 (addr : Vector UInt8 16)
  | other

/-- An entry of the list of `getifaddrs`; `ifa_addr` may be NULL. -/
structure IfAddrs where
  name : String
  flags : UInt32
  addr : Option SockAddr

def IFF_UP : UInt32 := 0x1
def IFF_LOOPBACK : UInt32 := 0x8

/-- `g_inet_address_get_is_link_local` and `g_inet_address_to_string`. -/
structure InetAddressFunctions where
  isLinkLocal : GInetAddress → Bool
  toString : GInetAddress → String

/-- `g_strsplit (string, ",", 0)`; nothing is left of the empty string. -/
def gStrsplit (string : String) : List String :=
  if string = "" then [] else string.splitOn ","

/-- Where the C code has no further meaning: the array of an unset blacklist ends with its
block, and `ifa_addr` is not tested.
-/
inductive InterfaceFault where
  | deadBlacklist | nullAddress
  deriving DecidableEq

-----------------------------------------------------------------------------------------
-- get_all_local_ips
-----------------------------------------------------------------------------------------

variable (inet : InetAddressFunctions)

/-- The variables of the loop. -/
structure Discovery where
  addresses : List LocalIP
  ifacecounter : UInt16

/-- The candidate of an address. -/
def localIP (thisaddr : GInetAddress) (ifacecounter : UInt16) : LocalIP where
  address := inet.toString thisaddr
  priority := ((1 : UInt32) <<< 16) * 126 + ifacecounter.toUInt32

/-- The end of the loop's body. -/
def Discovery.add (d : Discovery) (thisaddr : GInetAddress) : Discovery :=
  if inet.isLinkLocal thisaddr then
    d
  else
    { addresses := localIP inet thisaddr d.ifacecounter :: d.addresses
      ifacecounter := d.ifacecounter + 1 }

/-- The loop's body; the array of the blacklist is missing when it does not exist any more. -/
def Discovery.round (ifblacklist : Option (List String)) (d : Discovery) (ifaddr : IfAddrs)
    : Except InterfaceFault Discovery :=
  if ifaddr.flags &&& IFF_UP = 0 ∨ ifaddr.flags &&& IFF_LOOPBACK ≠ 0 then
    .ok d
  else
    match ifblacklist with
    | none => .error .deadBlacklist
    | some ifblacklist =>
        if ifaddr.name ∈ ifblacklist then
          .ok d
        else
          match ifaddr.addr with
          | none => .error .nullAddress
          | some (.inet addr) => .ok (d.add inet (.ipv4 addr))
          | some (.inet6 addr) => .ok (d.add inet (.ipv6 addr))
          | some .other => .ok d

/-- `get_all_local_ips`, from what `getifaddrs` gives and the option "js5b_iface_blacklist". -/
def getAllLocalIps (first : Option (List IfAddrs)) (blacklist : Option String)
    : Except InterfaceFault (List LocalIP) :=
  match first with
  | none => .ok []
  | some first => do
      let d ← first.foldlM (Discovery.round inet (blacklist.map gStrsplit))
        { addresses := [], ifacecounter := 0 }
      pure d.addresses

-----------------------------------------------------------------------------------------
-- What the loop finds
-----------------------------------------------------------------------------------------

def IfAddrs.isUp (ifaddr : IfAddrs) : Prop := ifaddr.flags &&& IFF_UP ≠ 0

def IfAddrs.isLoopback (ifaddr : IfAddrs) : Prop := ifaddr.flags &&& IFF_LOOPBACK ≠ 0

instance (ifaddr : IfAddrs) : Decidable ifaddr.isUp := inferInstanceAs (Decidable (_ ≠ _))

instance (ifaddr : IfAddrs) : Decidable ifaddr.isLoopback := inferInstanceAs (Decidable (_ ≠ _))

/-- The IPv4 or IPv6 address of an interface. -/
def IfAddrs.inetAddress (ifaddr : IfAddrs) : Option GInetAddress :=
  match ifaddr.addr with
  | some (.inet addr) => some (.ipv4 addr)
  | some (.inet6 addr) => some (.ipv6 addr)
  | some .other => none
  | none => none

/-- The interface is up, not loopback and not blacklisted. -/
def IfAddrs.Wanted (blacklist : String) (ifaddr : IfAddrs) : Prop :=
  ifaddr.isUp ∧ ¬ifaddr.isLoopback ∧ ifaddr.name ∉ gStrsplit blacklist

instance (blacklist : String) (ifaddr : IfAddrs) : Decidable (ifaddr.Wanted blacklist) :=
  inferInstanceAs (Decidable (_ ∧ _ ∧ _))

/-- The address of a wanted interface, unless it is link-local. -/
def IfAddrs.offered (blacklist : String) (ifaddr : IfAddrs) : Option GInetAddress :=
  if ifaddr.Wanted blacklist then
    ifaddr.inetAddress.filter (fun thisaddr => !inet.isLinkLocal thisaddr)
  else
    none

/-- The loop after these addresses were found. -/
def Discovery.of (found : List GInetAddress) : Discovery where
  addresses :=
    (found.mapIdx (fun index thisaddr => localIP inet thisaddr (UInt16.ofNat index))).reverse
  ifacecounter := UInt16.ofNat found.length

variable {inet : InetAddressFunctions} {blacklist : String}

theorem Discovery.of_add (found : List GInetAddress) (thisaddr : GInetAddress)
    : (Discovery.of inet found).add inet thisaddr
      = .of inet (found
          ++ ((some thisaddr).filter (fun thisaddr => !inet.isLinkLocal thisaddr)).toList) := by
  by_cases linkLocal : inet.isLinkLocal thisaddr = true
  · simp [add, linkLocal, Option.filter]
  · simp [add, linkLocal, Option.filter, of, List.mapIdx_append]

/-- Only a wanted interface needs its address. -/
def IfAddrs.Usable (blacklist : String) (ifaddr : IfAddrs) : Prop :=
  ifaddr.Wanted blacklist → ifaddr.addr ≠ none

/-- What one interface adds. -/
theorem Discovery.round_of (found : List GInetAddress) {ifaddr : IfAddrs}
    (usable : ifaddr.Usable blacklist)
    : (Discovery.of inet found).round inet (some (gStrsplit blacklist)) ifaddr
      = .ok (.of inet (found ++ (ifaddr.offered inet blacklist).toList)) := by
  unfold round
  by_cases skipped : ifaddr.flags &&& IFF_UP = 0 ∨ ifaddr.flags &&& IFF_LOOPBACK ≠ 0
  · have unwanted : ¬ifaddr.Wanted blacklist := by
      rintro ⟨up, other, _⟩
      rcases skipped with down | loopback
      · exact up down
      · exact other loopback
    simp [skipped, IfAddrs.offered, unwanted]
  · rw [if_neg skipped]
    dsimp only
    obtain ⟨up, other⟩ := not_or.mp skipped
    by_cases listed : ifaddr.name ∈ gStrsplit blacklist
    · have unwanted : ¬ifaddr.Wanted blacklist := fun wanted => wanted.2.2 listed
      simp [listed, IfAddrs.offered, unwanted]
    · have wanted : ifaddr.Wanted blacklist := ⟨up, other, listed⟩
      rw [if_neg listed]
      cases there : ifaddr.addr with
      | none => exact absurd there (usable wanted)
      | some addr =>
          cases addr with
          | inet addr =>
              simp [IfAddrs.offered, wanted, IfAddrs.inetAddress, there, Discovery.of_add]
          | inet6 addr =>
              simp [IfAddrs.offered, wanted, IfAddrs.inetAddress, there, Discovery.of_add]
          | other => simp [IfAddrs.offered, wanted, IfAddrs.inetAddress, there]

theorem Discovery.round_nullAddress (d : Discovery) {ifaddr : IfAddrs}
    (wanted : ifaddr.Wanted blacklist) (missing : ifaddr.addr = none)
    : d.round inet (some (gStrsplit blacklist)) ifaddr = .error .nullAddress := by
  obtain ⟨up, other, listed⟩ := wanted
  simp [round, missing, listed]
  exact ⟨up, not_not.mp other⟩

/-- By induction on the interfaces that are left. -/
theorem foldlM_round_of {first : List IfAddrs}
    (usable : ∀ ifaddr ∈ first, ifaddr.Usable blacklist) (found : List GInetAddress)
    : first.foldlM (Discovery.round inet (some (gStrsplit blacklist))) (.of inet found)
      = .ok (.of inet (found ++ first.filterMap (IfAddrs.offered inet blacklist))) := by
  induction first generalizing found with
  | nil =>
      rw [List.filterMap_nil, List.append_nil]
      rfl
  | cons ifaddr rest ih =>
      have next := ih (fun ifaddr member => usable ifaddr (List.mem_cons_of_mem _ member))
        (found ++ (ifaddr.offered inet blacklist).toList)
      rw [List.foldlM_cons, Discovery.round_of found (usable ifaddr List.mem_cons_self)]
      refine Eq.trans next ?_
      cases offer : ifaddr.offered inet blacklist with
      | none => simp [List.filterMap_cons_none offer]
      | some thisaddr => simp [List.filterMap_cons_some offer]

/-- The loop comes to its end only if every wanted interface has an address. -/
theorem usable_of_foldlM_round {first : List IfAddrs} {d r : Discovery}
    (ends : first.foldlM (Discovery.round inet (some (gStrsplit blacklist))) d = .ok r)
    : ∀ ifaddr ∈ first, ifaddr.Usable blacklist := by
  induction first generalizing d with
  | nil =>
      rintro ifaddr member
      cases member
  | cons ifaddr rest ih =>
      rw [List.foldlM_cons] at ends
      cases step : d.round inet (some (gStrsplit blacklist)) ifaddr with
      | error fault =>
          rw [step] at ends
          cases ends
      | ok next =>
          rw [step] at ends
          intro other member
          rcases List.mem_cons.mp member with rfl | later
          · intro wanted missing
            rw [Discovery.round_nullAddress d wanted missing] at step
            cases step
          · exact ih ends other later

/-- The local addresses are those of the interfaces, if no wanted one lacks its address. -/
theorem getAllLocalIps_ok_iff {first : List IfAddrs} {ips : List LocalIP}
    : getAllLocalIps inet (some first) (some blacklist) = .ok ips
      ↔ (∀ ifaddr ∈ first, ifaddr.Usable blacklist)
        ∧ ips = (Discovery.of inet
            (first.filterMap (IfAddrs.offered inet blacklist))).addresses := by
  constructor
  · intro ends
    cases loop : first.foldlM (Discovery.round inet (some (gStrsplit blacklist)))
        { addresses := [], ifacecounter := 0 } with
    | error fault =>
        simp [getAllLocalIps, loop, bind, Except.bind] at ends
    | ok r =>
        have usable := usable_of_foldlM_round loop
        have found := @foldlM_round_of inet blacklist first usable []
        refine ⟨usable, ?_⟩
        simp only [getAllLocalIps, Option.map_some, loop, bind, Except.bind, pure, Except.pure,
          Except.ok.injEq] at ends
        rw [← ends]
        have same : Except.ok r = Except.ok (ε := InterfaceFault) _ := loop.symm.trans found
        rw [Except.ok.inj same, List.nil_append]
  · rintro ⟨usable, rfl⟩
    have found := @foldlM_round_of inet blacklist first usable []
    rw [List.nil_append] at found
    change (first.foldlM (Discovery.round inet (some (gStrsplit blacklist)))
      (Discovery.of inet []) >>= fun d => pure d.addresses) = _
    rw [found]
    rfl

/-- Without the option, the first interface that is up and not loopback reads the dead array. -/
theorem getAllLocalIps_unset {ifaddr : IfAddrs} (up : ifaddr.isUp) (other : ¬ifaddr.isLoopback)
    (rest : List IfAddrs)
    : getAllLocalIps inet (some (ifaddr :: rest)) none = .error .deadBlacklist := by
  have tested : ¬(ifaddr.flags &&& IFF_UP = 0 ∨ ifaddr.flags &&& IFF_LOOPBACK ≠ 0) :=
    not_or.mpr ⟨up, other⟩
  simp only [getAllLocalIps, List.foldlM_cons, Discovery.round, if_neg tested]
  rfl

end McabberJingle.S5b
