import PCProject.Lib.CString
import PCProject.Lib.CountedLoop

namespace PCProject

/-- How the constructor of `Options` ends without options. The first two are thrown by `std::stoi`. -/
inductive ServerOptionsError
  | noConversion
  | outOfRange
  | invalidOptions
  deriving DecidableEq

def ServerOptionsError.what : ServerOptionsError → Bytes
  | .noConversion | .outOfRange => ascii "stoi"
  | .invalidOptions => ascii "Received invalid options!"

/-- `struct Options` of the chat server. -/
structure ServerOptions where
  port : Int
  maxConcurrentClients : Int
  timeout : Int
  deriving DecidableEq

/-- `std::stoi` on an argument: `strtol` must find a digit, and the value must be an `int`. -/
def stoi (argument : Bytes) : Except ServerOptionsError Int :=
  if (numeral argument).head?.any isDigit then
    match strtol (argument ++ [0]) with
    | some value => if -2 ^ 31 ≤ value ∧ value < 2 ^ 31 then .ok value else .error .outOfRange
    | none => .error .outOfRange
  else .error .noConversion

/-- `argc > i ? std::stoi(argv[i]) : otherwise`. -/
def serverOptionAt (argv : List Bytes) (i : Nat) (otherwise : Int) : Except ServerOptionsError Int :=
  (argv[i]?).elim (.ok otherwise) stoi

/-- The check of the constructor. -/
def ServerOptions.invalid (o : ServerOptions) : Bool :=
  o.port ≤ 0 || o.maxConcurrentClients ≤ 0 || (o.timeout ≤ 0 && o.timeout ≠ -1)

def serverOptions (argv : List Bytes) : Except ServerOptionsError ServerOptions := do
  let port ← serverOptionAt argv 1 8000
  let maxConcurrentClients ← serverOptionAt argv 2 16
  let timeout ← serverOptionAt argv 3 (-1)
  let options : ServerOptions := ⟨port, maxConcurrentClients, timeout⟩
  if options.invalid then .error .invalidOptions else .ok options

/-- The result of an operation on `int`. It is `none` where it overflows. -/
def intResult (value : Int) : Option Int := if -2 ^ 31 ≤ value ∧ value < 2 ^ 31 then some value else none

/-- `htons` on a machine that stores the low byte first. -/
def htons (hostshort : BitVec 16) : BitVec 16 := .ofNat 16 (256 * (hostshort.toNat % 256) + hostshort.toNat / 256)

/-- `address.sin_port` after Server::init: the argument of `htons` is cut down to 16 bits. -/
def ServerOptions.sinPort (o : ServerOptions) : BitVec 16 := htons (.ofInt 16 o.port)

/-- `Server::port`, which reads the stored port back. -/
def serverPort (sinPort : BitVec 16) : Int := (htons sinPort).toNat

/-- The argument of `Server::listen_`. -/
def ServerOptions.backlog (o : ServerOptions) : Option Int := intResult (o.maxConcurrentClients * 2)

/-- The time limit in the call of `poll`, which is made unless `timeout` is -1. -/
def ServerOptions.pollTimeout (o : ServerOptions) : Option Int := intResult (1000 * o.timeout)

/-- Three `int`s that pass the check. -/
structure ServerOptions.Accepted (o : ServerOptions) : Prop where
  port : -2 ^ 31 ≤ o.port ∧ o.port < 2 ^ 31
  maxConcurrentClients : -2 ^ 31 ≤ o.maxConcurrentClients ∧ o.maxConcurrentClients < 2 ^ 31
  timeout : -2 ^ 31 ≤ o.timeout ∧ o.timeout < 2 ^ 31
  valid : o.invalid = false

/-- What the server derives from the options are the mathematical values. -/
structure ServerOptions.Usable (o : ServerOptions) : Prop where
  port : serverPort o.sinPort = o.port
  backlog : o.backlog = some (2 * o.maxConcurrentClients)
  pollTimeout : o.timeout ≠ -1 → o.pollTimeout = some (1000 * o.timeout) ∧ 0 < 1000 * o.timeout

variable {o : ServerOptions} {argument : Bytes} {argv : List Bytes} {value : Int}

theorem stoi_bounds (read : stoi argument = .ok value) : -2 ^ 31 ≤ value ∧ value < 2 ^ 31 := by
  unfold stoi at read
  split at read
  · split at read
    · split at read
      · rename_i int
        cases read
        exact int
      · cases read
    · cases read
  · cases read

theorem serverOptionAt_bounds {i : Nat} {otherwise : Int} (default_ : -2 ^ 31 ≤ otherwise ∧ otherwise < 2 ^ 31)
    (read : serverOptionAt argv i otherwise = .ok value) : -2 ^ 31 ≤ value ∧ value < 2 ^ 31 := by
  unfold serverOptionAt at read
  cases here : argv[i]? with
  | none =>
    rw [here] at read
    cases read
    exact default_
  | some argument =>
    rw [here] at read
    exact stoi_bounds read

/-- The constructor accepts three `int`s that pass its check. -/
theorem serverOptions_accepted (constructed : serverOptions argv = .ok o) : o.Accepted := by
  obtain ⟨port, readPort, constructed⟩ := bind_ok constructed
  obtain ⟨maxConcurrentClients, readClients, constructed⟩ := bind_ok constructed
  obtain ⟨timeout, readTimeout, constructed⟩ := bind_ok constructed
  simp only at constructed
  split at constructed
  · cases constructed
  · rename_i valid
    cases constructed
    exact ⟨serverOptionAt_bounds (by decide) readPort, serverOptionAt_bounds (by decide) readClients,
      serverOptionAt_bounds (by decide) readTimeout, by simpa using valid⟩

theorem ServerOptions.Accepted.signs (accepted : o.Accepted) :
    1 ≤ o.port ∧ 1 ≤ o.maxConcurrentClients ∧ (o.timeout ≠ -1 → 1 ≤ o.timeout) := by
  have valid := accepted.valid
  simp only [ServerOptions.invalid, Bool.or_eq_false_iff, Bool.and_eq_false_iff, decide_eq_false_iff_not,
    ne_eq, Decidable.not_not] at valid
  omega

theorem htons_toNat (hostshort : BitVec 16) :
    (htons hostshort).toNat = 256 * (hostshort.toNat % 256) + hostshort.toNat / 256 := by
  have high : hostshort.toNat / 256 < 256 := by omega
  exact Nat.mod_eq_of_lt (by omega)

theorem htons_htons (hostshort : BitVec 16) : htons (htons hostshort) = hostshort := by
  have high : hostshort.toNat / 256 < 256 := by omega
  refine BitVec.eq_of_toNat_eq ?_
  rw [htons_toNat, htons_toNat, Nat.mul_add_mod, Nat.mod_eq_of_lt high, Nat.mul_add_div (by decide),
    Nat.div_eq_of_lt high]
  omega

/-- The port is stored modulo 2^16. -/
theorem serverPort_sinPort (o : ServerOptions) : serverPort o.sinPort = o.port % 2 ^ 16 := by
  rw [serverPort, ServerOptions.sinPort, htons_htons, BitVec.toNat_ofInt]
  omega

theorem intResult_eq (value : Int) : intResult value = some value ↔ -2 ^ 31 ≤ value ∧ value < 2 ^ 31 := by
  unfold intResult
  split <;> simp_all

/-- The options that are used as they are given. -/
theorem accepted_options_usable_iff (accepted : o.Accepted) :
    o.Usable ↔ o.port ≤ 65535 ∧ o.maxConcurrentClients ≤ 1073741823 ∧ o.timeout ≤ 2147483 := by
  obtain ⟨port, clients, limit⟩ := accepted.signs
  have portInt := accepted.port
  constructor
  · rintro ⟨samePort, backlog, pollTimeout⟩
    rw [serverPort_sinPort] at samePort
    rw [ServerOptions.backlog, Int.mul_comm, intResult_eq] at backlog
    refine ⟨by omega, by omega, ?_⟩
    by_cases endless : o.timeout = -1
    · omega
    · have argument := (pollTimeout endless).1
      rw [ServerOptions.pollTimeout, intResult_eq] at argument
      omega
  · rintro ⟨smallPort, fewClients, shortLimit⟩
    refine ⟨?_, ?_, fun finite => ⟨?_, ?_⟩⟩
    · rw [serverPort_sinPort]
      omega
    · rw [ServerOptions.backlog, Int.mul_comm, intResult_eq]
      omega
    · have positive := limit finite
      rw [ServerOptions.pollTimeout, intResult_eq]
      omega
    · have positive := limit finite
      omega

/-- A time limit of half a minute. -/
theorem given_options_usable :
    serverOptions [ascii "./server", ascii "9000", ascii "4", ascii "30"] = .ok ⟨9000, 4, 30⟩ ∧
      ServerOptions.Usable ⟨9000, 4, 30⟩ ∧ ServerOptions.pollTimeout ⟨9000, 4, 30⟩ = some 30000 := by
  have constructed : serverOptions [ascii "./server", ascii "9000", ascii "4", ascii "30"] = .ok ⟨9000, 4, 30⟩ := by
    decide
  have usable := (accepted_options_usable_iff (serverOptions_accepted constructed)).mpr (by decide)
  exact ⟨constructed, usable, (usable.pollTimeout (by decide)).1⟩

/-- Options that are too large: the server listens on port 0, and both products overflow. The low 32 bits of the
second are negative, which `poll` takes for no time limit. -/
theorem accepted_options_unusable :
    serverOptions [ascii "./server", ascii "65536", ascii "1073741824", ascii "2147484"] =
        .ok ⟨65536, 1073741824, 2147484⟩ ∧
      serverPort (ServerOptions.sinPort ⟨65536, 1073741824, 2147484⟩) = 0 ∧
      ServerOptions.backlog ⟨65536, 1073741824, 2147484⟩ = none ∧
      ServerOptions.pollTimeout ⟨65536, 1073741824, 2147484⟩ = none ∧
      ((1000 * 2147484 : Int).bmod (2 ^ 32) < 0) ∧
      ¬ServerOptions.Usable ⟨65536, 1073741824, 2147484⟩ := by
  refine ⟨by decide, by decide, by decide, by decide, by decide, fun usable => ?_⟩
  exact absurd usable.port (by decide)

end PCProject
