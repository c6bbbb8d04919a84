import SuperShare.Lib.HostPort

/-!
# Addresses and ports

A server has three ports: that of the control listener, that of the data listener, and that of
the pairing listener. Where a listener asks for port 0, the operating system chooses one. A client
has an address of the control listener only, and derives the addresses of the others from its text.
This file says exactly when it finds them.
-/

namespace SuperShare

open HostPort

/-- Default pairing port, relative to the control port. -/
def defaultPairingPort (controlPort : UInt16) : UInt16 :=
  UInt16.ofNat (controlPort.toNat - 1)

/-- `port + 1`, or nothing where it overflows. -/
def nextPort (port : UInt16) : Option UInt16 :=
  if port.toNat + 1 < 2 ^ 16 then some (port + 1) else none

/-! ## The server -/

/-- How a server is started: from the window, with both ports, or without it. -/
inductive ServerLaunch where
  | gui (controlPort dataPort : UInt16)
  | headless (port : UInt16)

/-- The ports that the listeners of a server ask for. -/
structure ServerPorts where
  control : UInt16
  data : UInt16
  pairing : UInt16

/-- The ports that the operating system has for listeners that ask for port 0. -/
structure ChosenPorts where
  control : UInt16
  data : UInt16
  pairing : UInt16
  control_ne : control ≠ 0
  data_ne : data ≠ 0
  pairing_ne : pairing ≠ 0

/-- The port at which a listener is bound that asks for a port. -/
def boundPort (asked chosen : UInt16) : UInt16 := if asked = 0 then chosen else asked

/-- The port that the control listener asks for. -/
def ServerLaunch.controlPort : ServerLaunch → UInt16
  | gui controlPort _ => controlPort
  | headless port => port

/-- The ports that the listeners ask for, unless their computation overflows. -/
def ServerLaunch.ports : ServerLaunch → Option ServerPorts
  | gui controlPort dataPort => some ⟨controlPort, dataPort, defaultPairingPort controlPort⟩
  | headless port => do
      let data ← nextPort port
      return ⟨port, data, defaultPairingPort port⟩

/-- The ports that the window offers: two different ones from 1024 on. -/
def ServerLaunch.Offered : ServerLaunch → Prop
  | gui controlPort dataPort =>
      1024 ≤ controlPort.toNat ∧ 1024 ≤ dataPort.toNat ∧ controlPort ≠ dataPort
  | headless _ => True

/-! ## The client -/

/-- The address of the control channel: one without a colon has the default port. -/
def controlAddress (serverAddress : String) : String :=
  if ':' ∈ serverAddress.toList then serverAddress else serverAddress ++ ":9876"

/-- The address of the data channel (port = control port + 1), unless the port overflows. -/
def dataAddress (serverAddress : String) : Option String :=
  match splitColon (controlAddress serverAddress) with
  | [host, port] => do
      let data ← nextPort ((parsePort port).getD 9876)
      return format host data
  | _ => some (serverAddress ++ ":9877")

/-- The address at which the client pairs. -/
def pairingAddress (serverAddress : String) : String :=
  let parts := splitColon serverAddress
  let host := parts.headD serverAddress
  let controlPort := (parts[1]?.bind parsePort).getD 9876
  format host (defaultPairingPort controlPort)

/-! ## Agreement -/

/-- A client with the address reaches the control listener of a server on the host. -/
def Reaches (start : ServerLaunch) (chosen : ChosenPorts) (serverAddress host : String) : Prop :=
  resolve (controlAddress serverAddress) =
    some (host, boundPort start.controlPort chosen.control)

/-- No port overflows, and the addresses that the client derives are those of the data listener
and of the pairing listener on the same host. -/
def Agrees (start : ServerLaunch) (chosen : ChosenPorts) (serverAddress host : String) : Prop :=
  ∃ ports data, start.ports = some ports ∧ dataAddress serverAddress = some data ∧
    resolve data = some (host, boundPort ports.data chosen.data) ∧
    resolve (pairingAddress serverAddress) = some (host, boundPort ports.pairing chosen.pairing)

/-- The data port is the one after the control port. Without the window, there is one after it,
and the pairing port before it is not 0. -/
def ServerLaunch.Consecutive : ServerLaunch → Prop
  | gui controlPort dataPort => dataPort.toNat = controlPort.toNat + 1
  | headless port => 2 ≤ port.toNat ∧ port.toNat < 65535

/-- The next port, as a number. -/
theorem nextPort_eq_some {port next : UInt16} :
    nextPort port = some next ↔ next.toNat = port.toNat + 1 := by
  have hone : (1 : UInt16).toNat = 1 := rfl
  have hbound := next.toNat_lt
  rw [nextPort]
  split
  · next hlt =>
    have hadd : (port + 1).toNat = port.toNat + 1 := by
      rw [UInt16.toNat_add, hone, Nat.mod_eq_of_lt hlt]
    constructor
    · rintro ⟨⟩
      exact hadd
    · intro hnext
      exact congrArg some (UInt16.toNat_inj.mp (hadd.trans hnext.symm))
  · next hge =>
    constructor
    · nofun
    · omega

/-- A listener that asks for a port other than 0 gets it. -/
theorem boundPort_of_pos {asked : UInt16} (h : 0 < asked.toNat) (chosen : UInt16) :
    boundPort asked chosen = asked := by
  refine if_neg ?_
  rintro rfl
  exact absurd h (by decide)

/-- The default pairing port, as a number. -/
theorem defaultPairingPort_toNat (port : UInt16) :
    (defaultPairingPort port).toNat = port.toNat - 1 := by
  rw [defaultPairingPort, UInt16.toNat_ofNat']
  exact Nat.mod_eq_of_lt (Nat.lt_of_le_of_lt (Nat.sub_le _ _) port.toNat_lt)

/-- A server has consecutive ports when its data listener is bound at the port after that of the
control listener, and its pairing listener at the default for it. -/
theorem consecutive_iff {start : ServerLaunch} (hoffered : start.Offered) (chosen : ChosenPorts) :
    start.Consecutive ↔ ∃ ports, start.ports = some ports ∧
      nextPort (boundPort start.controlPort chosen.control) =
        some (boundPort ports.data chosen.data) ∧
      defaultPairingPort (boundPort start.controlPort chosen.control) =
        boundPort ports.pairing chosen.pairing := by
  cases start with
  | gui controlPort dataPort =>
    obtain ⟨hcontrol, hdata, -⟩ := hoffered
    have hpairing : 0 < (defaultPairingPort controlPort).toNat := by
      rw [defaultPairingPort_toNat]
      omega
    have hbound := boundPort_of_pos hpairing chosen.pairing
    simp [ServerLaunch.Consecutive, ServerLaunch.ports, ServerLaunch.controlPort, nextPort_eq_some,
      boundPort_of_pos (Nat.zero_lt_of_lt hcontrol), boundPort_of_pos (Nat.zero_lt_of_lt hdata),
      hbound]
  | headless port =>
    simp only [ServerLaunch.Consecutive, ServerLaunch.ports, ServerLaunch.controlPort]
    constructor
    · rintro ⟨htwo, hlast⟩
      have hnext : nextPort port = some (port + 1) := if_pos (by omega)
      have hdata : 0 < (port + 1).toNat := by
        rw [nextPort_eq_some.mp hnext]
        omega
      have hpairing : 0 < (defaultPairingPort port).toNat := by
        rw [defaultPairingPort_toNat]
        omega
      refine ⟨⟨port, port + 1, defaultPairingPort port⟩, by simp [hnext], ?_, ?_⟩
      · rw [boundPort_of_pos (Nat.zero_lt_of_lt htwo), boundPort_of_pos hdata, hnext]
      · rw [boundPort_of_pos (Nat.zero_lt_of_lt htwo), boundPort_of_pos hpairing]
    · rintro ⟨ports, hports, hdata, hpairing⟩
      obtain ⟨data, hnext, hports⟩ := Option.bind_eq_some_iff.mp hports
      cases hports
      have hsucc := nextPort_eq_some.mp hnext
      have hlast := data.toNat_lt
      have hpos : 0 < data.toNat := by omega
      rw [boundPort_of_pos hpos] at hdata
      refine ⟨Nat.le_of_not_lt fun hsmall => ?_, by omega⟩
      have hzero : defaultPairingPort port = 0 := by
        rw [← UInt16.toNat_inj, defaultPairingPort_toNat]
        change port.toNat - 1 = 0
        omega
      by_cases hport : port = 0
      · -- the control listener is at a port of the operating system's, the data listener at 1
        have hcontrol := nextPort_eq_some.mp hdata
        rw [boundPort, if_pos hport] at hcontrol
        rw [hsucc, hport] at hcontrol
        refine chosen.control_ne (UInt16.toNat_inj.mp ?_)
        change chosen.control.toNat = 0
        change 0 + 1 = chosen.control.toNat + 1 at hcontrol
        omega
      · -- the pairing listener is at a port of the operating system's
        rw [boundPort, if_neg hport, hzero, boundPort, if_pos rfl] at hpairing
        exact chosen.pairing_ne hpairing.symm

/-- The addresses that a client derives from a host without a colon and the text of a port. -/
theorem derived_of_port {host port : String} {controlPort : UInt16} (hhost : ':' ∉ host.toList)
    (hcolon : ':' ∉ port.toList) (hport : parsePort port = some controlPort) :
    dataAddress (host ++ ":" ++ port) = (nextPort controlPort).map (format host) ∧
      pairingAddress (host ++ ":" ++ port) = format host (defaultPairingPort controlPort) := by
  have hparts : splitColon (host ++ ":" ++ port) = [host, port] := by
    rw [splitColon_append, splitColon_of_notMem hhost, splitColon_of_notMem hcolon]
    rfl
  have hmem : ':' ∈ (host ++ ":" ++ port).toList := by simp
  constructor
  · rw [dataAddress, controlAddress, if_pos hmem, hparts]
    simp only [hport, Option.getD_some]
    cases nextPort controlPort <;> rfl
  · simp [pairingAddress, hparts, hport]

/-- The addresses that a client derives from a host without a colon and without a port. -/
theorem derived_of_host {host : String} (hhost : ':' ∉ host.toList) :
    dataAddress host = (nextPort 9876).map (format host) ∧
      pairingAddress host = format host (defaultPairingPort 9876) := by
  have hparts : splitColon (host ++ ":9876") = [host, "9876"] := by
    have hdefault := splitColon_append host "9876"
    have hport : splitColon "9876" = ["9876"] := splitColon_of_notMem (by decide)
    rwa [splitColon_of_notMem hhost, hport, String.append_assoc] at hdefault
  constructor
  · rw [dataAddress, controlAddress, if_neg hhost, hparts]
    rfl
  · simp [pairingAddress, splitColon_of_notMem hhost]

/-- An address without a colon is that of the host, at the default port. -/
theorem resolve_default (host : String) : resolve (host ++ ":9876") = some (host, 9876) := by
  have hdefault : resolve (host ++ ":" ++ "9876") = some (host, 9876) :=
    resolve_append (by decide) rfl
  rwa [String.append_assoc] at hdefault

/-- An address by which a client reaches a host is the host alone, with the default control port,
or the host with the text of the control port. -/
theorem Reaches.cases {start : ServerLaunch} {chosen : ChosenPorts} {serverAddress host : String}
    (h : Reaches start chosen serverAddress host) :
    (serverAddress = host ∧ ':' ∉ host.toList ∧
      boundPort start.controlPort chosen.control = 9876) ∨
      ∃ port, serverAddress = host ++ ":" ++ port ∧ ':' ∉ port.toList ∧
        parsePort port = some (boundPort start.controlPort chosen.control) := by
  rw [Reaches, controlAddress] at h
  split at h
  · exact .inr (eq_of_resolve h)
  · next hnotin =>
    rw [resolve_default] at h
    obtain ⟨rfl, hport⟩ := Prod.mk.inj (Option.some.inj h)
    exact .inl ⟨rfl, hnotin, hport.symm⟩

/-- A client that reaches a host without a colon derives the address of the next port, and that of
the pairing port of the control port. -/
theorem Reaches.derived {start : ServerLaunch} {chosen : ChosenPorts}
    {serverAddress host : String} (h : Reaches start chosen serverAddress host)
    (hhost : ':' ∉ host.toList) :
    dataAddress serverAddress =
        (nextPort (boundPort start.controlPort chosen.control)).map (format host) ∧
      pairingAddress serverAddress =
        format host (defaultPairingPort (boundPort start.controlPort chosen.control)) := by
  rcases h.cases with ⟨rfl, -, hport⟩ | ⟨port, rfl, hcolon, hport⟩
  · rw [hport]
    exact derived_of_host hhost
  · exact derived_of_port hhost hcolon hport

/-- A host with a colon is not the host of the data address that the client derives. -/
theorem Reaches.data_ne {start : ServerLaunch} {chosen : ChosenPorts}
    {serverAddress host data : String} (h : Reaches start chosen serverAddress host)
    (hhost : ':' ∈ host.toList)
    (hdata : dataAddress serverAddress = some data) (port : UInt16) :
    resolve data ≠ some (host, port) := by
  rcases h.cases with ⟨-, hnotin, -⟩ | ⟨text, rfl, -, -⟩
  · exact absurd hhost hnotin
  · have hmem : ':' ∈ (host ++ ":" ++ text).toList := by simp
    have hlength : 3 ≤ (splitColon (host ++ ":" ++ text)).length := by
      have htwo := two_le_length_splitColon hhost
      have hone : 1 ≤ (splitColon text).length := by
        rw [splitColon, List.length_map]
        exact List.length_pos_iff.mpr (List.splitOn_ne_nil ':' _)
      rw [splitColon_append, List.length_append]
      omega
    -- with three parts or more, the client appends a port to the whole address
    have hwhole : data = host ++ ":" ++ text ++ ":" ++ "9877" := by
      rw [dataAddress, controlAddress, if_pos hmem] at hdata
      split at hdata
      · next hparts =>
        rw [hparts] at hlength
        exact absurd hlength (by simp)
      · have hassoc : host ++ ":" ++ text ++ ":" ++ "9877" =
            host ++ ":" ++ text ++ (":" ++ "9877") := String.append_assoc
        rw [hassoc]
        exact (Option.some.inj hdata).symm
    intro hresolve
    rw [hwhole, resolve_append (by decide) (show parsePort "9877" = some 9877 from rfl)] at hresolve
    have hsame := congrArg (fun r => (r.1.toList).length) (Option.some.inj hresolve)
    simp at hsame

/-- Addresses that agree are of a host without a colon and of consecutive ports. -/
theorem Agrees.consecutive {start : ServerLaunch} {chosen : ChosenPorts}
    {serverAddress host : String} (hagrees : Agrees start chosen serverAddress host)
    (hoffered : start.Offered) (h : Reaches start chosen serverAddress host) :
    ':' ∉ host.toList ∧ start.Consecutive := by
  obtain ⟨ports, data, hports, hdata, hresolve, hpairing⟩ := hagrees
  have hhost : ':' ∉ host.toList := fun hmem => h.data_ne hmem hdata _ hresolve
  obtain ⟨hderived, hderived'⟩ := h.derived hhost
  rw [hderived] at hdata
  obtain ⟨next, hnext, rfl⟩ := Option.map_eq_some_iff.mp hdata
  rw [resolve_format] at hresolve
  rw [hderived', resolve_format] at hpairing
  refine ⟨hhost, (consecutive_iff hoffered chosen).mpr ⟨ports, hports, ?_, ?_⟩⟩
  · rw [hnext, (Prod.mk.inj (Option.some.inj hresolve)).2]
  · exact (Prod.mk.inj (Option.some.inj hpairing)).2

/-- **Derived addresses.** A client with an address by which it reaches the control listener finds
the data listener and the pairing listener too, without overflow of a port, if and only if the
host has no colon and the data port is the one after the control port, with a pairing port before
it. -/
theorem agrees_iff {start : ServerLaunch} {chosen : ChosenPorts} {serverAddress host : String}
    (hoffered : start.Offered) (h : Reaches start chosen serverAddress host) :
    Agrees start chosen serverAddress host ↔ ':' ∉ host.toList ∧ start.Consecutive := by
  constructor
  · exact fun hagrees => hagrees.consecutive hoffered h
  · rintro ⟨hhost, hconsecutive⟩
    obtain ⟨ports, hports, hnext, hdefault⟩ := (consecutive_iff hoffered chosen).mp hconsecutive
    obtain ⟨hdata, hpairing⟩ := h.derived hhost
    rw [hnext] at hdata
    refine ⟨ports, _, hports, hdata, resolve_format host _, ?_⟩
    rw [hpairing, resolve_format, hdefault]

/-- Ports of the range from which the operating system chooses. -/
def ephemeralPorts : ChosenPorts where
  control := 40000
  data := 40001
  pairing := 40002
  control_ne := by decide
  data_ne := by decide
  pairing_ne := by decide

/-- The default ports. -/
theorem agrees_iff_default :
    Agrees (.gui 9876 9877) ephemeralPorts "192.168.1.10" "192.168.1.10" ↔
      ':' ∉ "192.168.1.10".toList ∧ (ServerLaunch.gui 9876 9877).Consecutive :=
  agrees_iff ⟨by decide, by decide, by decide⟩ (resolve_default "192.168.1.10")

/-- A data port that is not the next one is not found, nor is any port of a host in brackets. The
last port has no next one, and before the first there is none to pair at. -/
theorem addresses_disagree :
    (ServerLaunch.Offered (.gui 5000 6000) ∧
      Reaches (.gui 5000 6000) ephemeralPorts "laptop:5000" "laptop" ∧
      ¬ Agrees (.gui 5000 6000) ephemeralPorts "laptop:5000" "laptop") ∧
    (Reaches (.headless 9876) ephemeralPorts "[::1]:9876" "[::1]" ∧
      ¬ Agrees (.headless 9876) ephemeralPorts "[::1]:9876" "[::1]") ∧
    (Reaches (.headless 65535) ephemeralPorts "laptop:65535" "laptop" ∧
      ¬ Agrees (.headless 65535) ephemeralPorts "laptop:65535" "laptop") ∧
    (Reaches (.headless 1) ephemeralPorts "laptop:1" "laptop" ∧
      ¬ Agrees (.headless 1) ephemeralPorts "laptop:1" "laptop") ∧
    (Reaches (.headless 0) ephemeralPorts "laptop:40000" "laptop" ∧
      ¬ Agrees (.headless 0) ephemeralPorts "laptop:40000" "laptop") := by
  have hlaptop : Reaches (.gui 5000 6000) ephemeralPorts "laptop:5000" "laptop" := rfl
  have hbrackets : Reaches (.headless 9876) ephemeralPorts "[::1]:9876" "[::1]" := rfl
  have hlast : Reaches (.headless 65535) ephemeralPorts "laptop:65535" "laptop" := rfl
  have hone : Reaches (.headless 1) ephemeralPorts "laptop:1" "laptop" := rfl
  have hzero : Reaches (.headless 0) ephemeralPorts "laptop:40000" "laptop" := rfl
  have hoffered : ServerLaunch.Offered (.gui 5000 6000) := ⟨by decide, by decide, by decide⟩
  refine ⟨⟨hoffered, hlaptop, ?_⟩, ⟨hbrackets, ?_⟩, ⟨hlast, ?_⟩, ⟨hone, ?_⟩, hzero, ?_⟩
  · intro hagrees
    have hnext : (6000 : UInt16).toNat = (5000 : UInt16).toNat + 1 :=
      (hagrees.consecutive hoffered hlaptop).2
    exact absurd hnext (by decide)
  · intro hagrees
    exact absurd (hagrees.consecutive trivial hbrackets).1 (by decide)
  · intro hagrees
    have hport : (65535 : UInt16).toNat < 65535 := (hagrees.consecutive trivial hlast).2.2
    exact absurd hport (by decide)
  · intro hagrees
    have hport : 2 ≤ (1 : UInt16).toNat := (hagrees.consecutive trivial hone).2.1
    exact absurd hport (by decide)
  · intro hagrees
    have hport : 2 ≤ (0 : UInt16).toNat := (hagrees.consecutive trivial hzero).2.1
    exact absurd hport (by decide)

end SuperShare
