import CoroEpoll.Library.Text
import CoroEpoll.ThreadPool.Startup
import Mathlib.Algebra.Group.Nat.Defs
import Mathlib.Data.List.TakeWhile

/-! The command lines of the servers. -/

set_option autoImplicit false

namespace CoroEpoll.Servers

open Text

/-- What `std::from_chars` does for an unsigned type: the number it writes, if there is no
error, and how many characters it has taken. -/
structure FromChars where
  value : Option Nat
  taken : Nat
  deriving DecidableEq

/-- Of a number that does not fit the type all digits are taken. -/
def fromChars (typeMax : Nat) (text : Bytes) : FromChars :=
  let digits := text.takeWhile isDigit
  if digits = [] then ⟨none, 0⟩
  else if typeMax < number digits then ⟨none, digits.length⟩
  else ⟨some (number digits), digits.length⟩

structure NumberArgument where
  /-- the greatest number of the type that is parsed -/
  typeMax : Nat
  /-- the bound that the code checks, if it checks one -/
  limit : Option Nat
  what : String

def NumberArgument.error (argument : NumberArgument) : Exception :=
  .std (.runtimeError argument.what)

def NumberArgument.read (argument : NumberArgument) (text : Bytes) : Except Exception Nat :=
  let result := fromChars argument.typeMax text
  -- initialized with zero, and not written on an error
  let value := result.value.getD 0
  if result.value = none ∨ result.taken ≠ text.length ∨ value = 0 ∨
      argument.limit.any (fun limit => decide (limit < value)) = true then
    .error argument.error
  else .ok value

def portArgument (what : String) : NumberArgument := ⟨2 ^ 32 - 1, some 65535, what⟩

def countArgument (what : String) : NumberArgument := ⟨2 ^ 64 - 1, none, what⟩

def port : NumberArgument := portArgument "port must be an integer between 1 and 65535"
def workerCount : NumberArgument := countArgument "worker count must be a positive integer"
def businessWorkerCount : NumberArgument :=
  countArgument "business worker count must be a positive integer"
def listenPort : NumberArgument := portArgument "listen port must be an integer between 1 and 65535"
def backendPort : NumberArgument :=
  portArgument "backend port must be an integer between 1 and 65535"

def parsePort (defaultPort : BitVec 16) (argv : List Bytes) : Except Exception (BitVec 16) :=
  match argv[1]? with
  | none => .ok defaultPort
  | some text => (port.read text).map (BitVec.ofNat 16)

/-- `std::thread::hardware_concurrency()` is zero where it is not known. -/
def defaultWorkers (hardwareWorkers : Nat) : Nat := if hardwareWorkers = 0 then 4 else hardwareWorkers

def parseWorkerCount (index hardwareWorkers : Nat) (argv : List Bytes) : Except Exception Nat :=
  match argv[index]? with
  | none => .ok (defaultWorkers hardwareWorkers)
  | some text => workerCount.read text

def parseBusinessWorkerCount (defaultCount : Nat) (argv : List Bytes) : Except Exception Nat :=
  match argv[3]? with
  | none => .ok defaultCount
  | some text => businessWorkerCount.read text

def usage : Exception :=
  .std (.runtimeError "usage: proxy_server <listen_port> <backend_host> <backend_port> [worker_count]")

def parseListenPort (argv : List Bytes) : Except Exception (BitVec 16) :=
  match argv[1]? with
  | none => .error usage
  | some text => (listenPort.read text).map (BitVec.ofNat 16)

def parseBackendHost (argv : List Bytes) : Except Exception Bytes :=
  match argv[2]? with
  | none => .error usage
  | some text => .ok text

def parseBackendPort (argv : List Bytes) : Except Exception (BitVec 16) :=
  match argv[3]? with
  | none => .error usage
  | some text => (backendPort.read text).map (BitVec.ofNat 16)

/-- What `main` of the echo servers reads off its arguments; the HTTP server stops behind the
worker count. -/
structure EchoSettings where
  port : BitVec 16
  workers : Nat
  businessWorkers : Nat
  deriving DecidableEq

def echoSettings (defaultPort : BitVec 16) (hardwareWorkers : Nat) (argv : List Bytes) :
    Except Exception EchoSettings := do
  let port ← parsePort defaultPort argv
  let workers ← parseWorkerCount 2 hardwareWorkers argv
  let businessWorkers ← parseBusinessWorkerCount workers argv
  return ⟨port, workers, businessWorkers⟩

structure ProxySettings where
  listenPort : BitVec 16
  backendHost : Bytes
  backendPort : BitVec 16
  workers : Nat
  deriving DecidableEq

def proxySettings (hardwareWorkers : Nat) (argv : List Bytes) : Except Exception ProxySettings := do
  let listenPort ← parseListenPort argv
  let backendHost ← parseBackendHost argv
  let backendPort ← parseBackendPort argv
  let workers ← parseWorkerCount 4 hardwareWorkers argv
  return ⟨listenPort, backendHost, backendPort, workers⟩

/-! ## One argument -/

/-- Decimal digits and nothing else, for a number between one and a bound. -/
def Numeral (most : Nat) (text : Bytes) (value : Nat) : Prop :=
  text ≠ [] ∧ (∀ byte ∈ text, isDigit byte = true) ∧ number text = value ∧ 0 < value ∧ value ≤ most

def NumberArgument.most (argument : NumberArgument) : Nat := argument.limit.getD argument.typeMax

theorem fromChars_iff {typeMax value : Nat} {text : Bytes} :
    fromChars typeMax text = ⟨some value, text.length⟩ ↔
      text ≠ [] ∧ (∀ byte ∈ text, isDigit byte = true) ∧ number text = value ∧ value ≤ typeMax := by
  constructor
  · intro result
    unfold fromChars at result
    dsimp only at result
    split at result
    · cases result
    · rename_i something
      split at result
      · cases result
      · rename_i fits
        obtain ⟨same, taken⟩ := FromChars.mk.inj result
        have whole : text.takeWhile isDigit = text :=
          (List.takeWhile_prefix isDigit).eq_of_length taken
        rw [whole] at something fits same
        have same : number text = value := Option.some.inj same
        exact ⟨something, List.takeWhile_eq_self_iff.mp whole, same, same ▸ Nat.not_lt.mp fits⟩
  · rintro ⟨something, digits, rfl, fits⟩
    have whole : text.takeWhile isDigit = text := List.takeWhile_eq_self_iff.mpr digits
    unfold fromChars
    rw [whole, if_neg something, if_neg (Nat.not_lt.mpr fits)]

theorem read_eq_ok {argument : NumberArgument} {text : Bytes} {value : Nat} :
    argument.read text = .ok value ↔ fromChars argument.typeMax text = ⟨some value, text.length⟩ ∧
      value ≠ 0 ∧ ∀ limit, argument.limit = some limit → value ≤ limit := by
  unfold NumberArgument.read
  cases result : fromChars argument.typeMax text with
  | mk written taken =>
    cases written with
    | none => simp
    | some number =>
      simp only [Option.getD_some, reduceCtorEq, false_or]
      split
      · rename_i refused
        constructor
        · intro ok
          cases ok
        · rintro ⟨same, positive, within⟩
          cases same
          rcases refused with more | zero | above
          · exact absurd rfl more
          · exact absurd zero positive
          · cases checked : argument.limit with
            | none => simp [checked] at above
            | some limit =>
              have fits := within limit checked
              simp only [checked, Option.any_some, decide_eq_true_eq] at above
              omega
      · rename_i accepted
        simp only [not_or, not_not] at accepted
        obtain ⟨all, positive, within⟩ := accepted
        constructor
        · intro ok
          cases ok
          refine ⟨by rw [all], positive, fun limit checked => ?_⟩
          have fits := within
          simpa [checked] using fits
        · rintro ⟨same, -, -⟩
          cases same
          rfl

theorem read_iff {argument : NumberArgument} (within : argument.most ≤ argument.typeMax)
    {text : Bytes} {value : Nat} : argument.read text = .ok value ↔
      Numeral argument.most text value := by
  rw [read_eq_ok, fromChars_iff]
  unfold Numeral NumberArgument.most at *
  cases limit : argument.limit with
  | none =>
    simp only [limit, Option.getD_none] at within ⊢
    simp only [reduceCtorEq, false_implies, implies_true, and_true, Nat.pos_iff_ne_zero]
    tauto
  | some bound =>
    simp only [limit, Option.getD_some] at within ⊢
    constructor
    · rintro ⟨⟨something, digits, same, -⟩, positive, fits⟩
      exact ⟨something, digits, same, Nat.pos_of_ne_zero positive, fits bound rfl⟩
    · rintro ⟨something, digits, same, positive, fits⟩
      refine ⟨⟨something, digits, same, fits.trans within⟩, Nat.ne_of_gt positive, ?_⟩
      rintro _ ⟨⟩
      exact fits

theorem read_eq_error {argument : NumberArgument} (within : argument.most ≤ argument.typeMax)
    {text : Bytes} {error : Exception} : argument.read text = .error error ↔
      (∀ value, ¬ Numeral argument.most text value) ∧ error = argument.error := by
  have named : ∀ {error}, argument.read text = .error error → error = argument.error := by
    intro error refused
    unfold NumberArgument.read at refused
    dsimp only at refused
    split at refused
    · exact (Except.error.inj refused).symm
    · cases refused
  constructor
  · intro refused
    refine ⟨fun value numeral => ?_, named refused⟩
    rw [(read_iff within).mpr numeral] at refused
    cases refused
  · rintro ⟨none, rfl⟩
    cases result : argument.read text with
    | ok value => exact absurd ((read_iff within).mp result) (none value)
    | error error => rw [named result]

/-- The argument with the index, or a default if there is none and one is allowed. -/
def Given (argv : List Bytes) (index most : Nat) (default : Option Nat) (value : Nat) : Prop :=
  match argv[index]? with
  | none => default = some value
  | some text => Numeral most text value

/-- The argument with the index is missing or is no numeral within the bound, which is the error. -/
def Fault (argv : List Bytes) (index most : Nat) (missing : Option Exception)
    (refused error : Exception) : Prop :=
  match argv[index]? with
  | none => missing = some error
  | some text => (∀ value, ¬ Numeral most text value) ∧ error = refused

structure Parses {α : Type} (parsed : Except Exception α) (given : α → Prop)
    (fault : Exception → Prop) : Prop where
  ok : ∀ a, parsed = .ok a ↔ given a
  error : ∀ e, parsed = .error e ↔ fault e

theorem Parses.numeral (argument : NumberArgument) (within : argument.most ≤ argument.typeMax)
    (text : Bytes) : Parses (argument.read text) (Numeral argument.most text) fun e =>
      (∀ value, ¬ Numeral argument.most text value) ∧ e = argument.error :=
  ⟨fun _ => read_iff within, fun _ => read_eq_error within⟩

/-- A port is not cut off by the cast. -/
theorem Parses.toPort {read : Except Exception Nat} {text : Bytes} {fault : Exception → Prop}
    (parses : Parses read (Numeral 65535 text) fault) :
    Parses (read.map (BitVec.ofNat 16)) (fun port => Numeral 65535 text port.toNat) fault := by
  have cast : ∀ {value}, Numeral 65535 text value → (BitVec.ofNat 16 value).toNat = value := by
    intro value numeral
    rw [BitVec.toNat_ofNat]
    exact Nat.mod_eq_of_lt (Nat.lt_succ_of_le numeral.2.2.2.2)
  constructor
  · intro port
    cases result : read with
    | ok value =>
      have numeral := (parses.ok value).mp result
      constructor
      · intro same
        cases same
        rwa [cast numeral]
      · intro same
        have equal : port.toNat = value := same.2.2.1.symm.trans numeral.2.2.1
        rw [← equal]
        simp [Except.map]
    | error e =>
      refine iff_of_false (by simp [Except.map]) fun numeral => ?_
      cases result.symm.trans ((parses.ok _).mpr numeral)
  · intro e
    rw [← parses.error e]
    cases read <;> simp [Except.map]

theorem Parses.optional {α : Type} {argv : List Bytes} {index most : Nat} {initial : α} (toNat : α → Nat)
    (injective : Function.Injective toNat) {refused : Exception} {read : Bytes → Except Exception α}
    (parses : ∀ text, Parses (read text) (fun a => Numeral most text (toNat a)) fun e =>
      (∀ value, ¬ Numeral most text value) ∧ e = refused) :
    Parses (match argv[index]? with
      | none => .ok initial
      | some text => read text)
      (fun a => Given argv index most (some (toNat initial)) (toNat a))
      (Fault argv index most none refused) := by
  unfold Given
  unfold Fault
  cases argv[index]? with
  | none =>
    constructor
    · intro a
      simp [injective.eq_iff]
    · intro e
      simp
  | some text => exact parses text

theorem Parses.required {α : Type} {argv : List Bytes} {index most : Nat} {missing : Exception}
    {toNat : α → Nat} {refused : Exception} {read : Bytes → Except Exception α}
    (parses : ∀ text, Parses (read text) (fun a => Numeral most text (toNat a)) fun e =>
      (∀ value, ¬ Numeral most text value) ∧ e = refused) :
    Parses (match argv[index]? with
      | none => .error missing
      | some text => read text)
      (fun a => Given argv index most none (toNat a))
      (Fault argv index most (some missing) refused) := by
  unfold Given
  unfold Fault
  cases argv[index]? with
  | none =>
    constructor
    · intro a
      simp
    · intro e
      simp
  | some text => exact parses text

/-! ## The arguments of a program -/

theorem Parses.bind {α β : Type} {first : Except Exception α} {next : α → Except Exception β}
    {given : α → Prop} {fault : Exception → Prop} {given' : α → β → Prop}
    {fault' : α → Exception → Prop} (parses : Parses first given fault)
    (later : ∀ a, Parses (next a) (given' a) (fault' a)) :
    Parses (first >>= next) (fun b => ∃ a, given a ∧ given' a b)
      (fun e => fault e ∨ ∃ a, given a ∧ fault' a e) := by
  cases result : first with
  | ok a =>
    have only : ∀ a', given a' ↔ a' = a := by
      intro a'
      rw [← parses.ok, result]
      simp [eq_comm]
    have unfailed : ∀ e, ¬ fault e := by
      intro e failed
      cases result.symm.trans ((parses.error e).mpr failed)
    constructor
    · intro b
      simp only [only, exists_eq_left]
      exact (later a).ok b
    · intro e
      simp only [only, exists_eq_left, unfailed, false_or]
      exact (later a).error e
  | error error =>
    have nothing : ∀ a, ¬ given a := by
      intro a gives
      cases result.symm.trans ((parses.ok a).mpr gives)
    constructor
    · intro b
      refine iff_of_false (fun same => by cases same) ?_
      rintro ⟨a, gives, -⟩
      exact nothing a gives
    · intro e
      have same : fault e ↔ error = e := by
        rw [← parses.error, result]
        simp
      simp only [nothing, false_and, exists_false, or_false, same]
      exact ⟨Except.error.inj, congrArg Except.error⟩

theorem Parses.pure {α : Type} (a : α) :
    Parses (Pure.pure a : Except Exception α) (fun b => b = a) fun _ => False :=
  ⟨fun b => ⟨fun same => (Except.ok.inj same).symm, fun same => congrArg Except.ok same.symm⟩,
    fun e => ⟨fun same => (by cases same), False.elim⟩⟩

theorem parsePort_parses (defaultPort : BitVec 16) (argv : List Bytes) :
    Parses (parsePort defaultPort argv)
      (fun value => Given argv 1 65535 (some defaultPort.toNat) value.toNat)
      (Fault argv 1 65535 none port.error) :=
  Parses.optional BitVec.toNat (fun _ _ => BitVec.eq_of_toNat_eq) fun text =>
    (Parses.numeral port (by decide) text).toPort

theorem parseWorkerCount_parses (index hardwareWorkers : Nat) (argv : List Bytes) :
    Parses (parseWorkerCount index hardwareWorkers argv)
      (Given argv index (2 ^ 64 - 1) (some (defaultWorkers hardwareWorkers)))
      (Fault argv index (2 ^ 64 - 1) none workerCount.error) :=
  Parses.optional id Function.injective_id fun text =>
    Parses.numeral workerCount (Nat.le_refl _) text

theorem parseBusinessWorkerCount_parses (defaultCount : Nat) (argv : List Bytes) :
    Parses (parseBusinessWorkerCount defaultCount argv)
      (Given argv 3 (2 ^ 64 - 1) (some defaultCount))
      (Fault argv 3 (2 ^ 64 - 1) none businessWorkerCount.error) :=
  Parses.optional id Function.injective_id fun text =>
    Parses.numeral businessWorkerCount (Nat.le_refl _) text

theorem parseListenPort_parses (argv : List Bytes) :
    Parses (parseListenPort argv) (fun value => Given argv 1 65535 none value.toNat)
      (Fault argv 1 65535 (some usage) listenPort.error) :=
  Parses.required fun text => (Parses.numeral listenPort (by decide) text).toPort

theorem parseBackendPort_parses (argv : List Bytes) :
    Parses (parseBackendPort argv) (fun value => Given argv 3 65535 none value.toNat)
      (Fault argv 3 65535 (some usage) backendPort.error) :=
  Parses.required fun text => (Parses.numeral backendPort (by decide) text).toPort

theorem parseBackendHost_parses (argv : List Bytes) :
    Parses (parseBackendHost argv) (fun host => argv[2]? = some host)
      (fun e => argv[2]? = none ∧ e = usage) := by
  unfold parseBackendHost
  cases argv[2]? with
  | none => exact ⟨fun host => by simp, fun e => by simp [eq_comm]⟩
  | some text => exact ⟨fun host => by simp, fun e => by simp⟩

/-- An echo server starts with the numbers that its arguments stand for, or with the defaults
for those that are missing; else it ends with the message for the first argument that is not a
decimal number in its range. -/
theorem echo_settings (defaultPort : BitVec 16) (hardwareWorkers : Nat) (argv : List Bytes) :
    Parses (echoSettings defaultPort hardwareWorkers argv)
      (fun settings => Given argv 1 65535 (some defaultPort.toNat) settings.port.toNat ∧
        Given argv 2 (2 ^ 64 - 1) (some (defaultWorkers hardwareWorkers)) settings.workers ∧
        Given argv 3 (2 ^ 64 - 1) (some settings.workers) settings.businessWorkers)
      (fun e => Fault argv 1 65535 none port.error e ∨
        ∃ value : BitVec 16, Given argv 1 65535 (some defaultPort.toNat) value.toNat ∧
          (Fault argv 2 (2 ^ 64 - 1) none workerCount.error e ∨
            ∃ workers, Given argv 2 (2 ^ 64 - 1) (some (defaultWorkers hardwareWorkers)) workers ∧
              Fault argv 3 (2 ^ 64 - 1) none businessWorkerCount.error e)) := by
  have parses := (parsePort_parses defaultPort argv).bind fun value =>
    (parseWorkerCount_parses 2 hardwareWorkers argv).bind fun workers =>
      (parseBusinessWorkerCount_parses workers argv).bind fun businessWorkers =>
        Parses.pure (⟨value, workers, businessWorkers⟩ : EchoSettings)
  refine ⟨fun settings => (parses.ok settings).trans ?_, fun e => (parses.error e).trans ?_⟩
  · constructor
    · rintro ⟨value, atPort, workers, atWorkers, businessWorkers, atBusiness, rfl⟩
      exact ⟨atPort, atWorkers, atBusiness⟩
    · rintro ⟨atPort, atWorkers, atBusiness⟩
      exact ⟨_, atPort, _, atWorkers, _, atBusiness, rfl⟩
  · simp only [and_false, exists_false, or_false]

example : echoSettings 8888 0 [ascii "echo", ascii "0080"] = .ok ⟨80, 4, 4⟩ := by decide

theorem numeral_decimal {most n : Nat} (positive : 0 < n) (within : n ≤ most) :
    Numeral most (decimal n) n :=
  ⟨decimal_ne_nil n, fun _ => isDigit_decimal, number_decimal n, positive, within⟩

theorem echo_settings_decimal (defaultPort : BitVec 16) (hardwareWorkers : Nat) (name : Bytes)
    {settings : EchoSettings} (port : 0 < settings.port.toNat) (workers : 0 < settings.workers)
    (business : 0 < settings.businessWorkers) (word : settings.workers < 2 ^ 64)
    (word' : settings.businessWorkers < 2 ^ 64) :
    echoSettings defaultPort hardwareWorkers [name, decimal settings.port.toNat,
      decimal settings.workers, decimal settings.businessWorkers] = .ok settings := by
  rw [(echo_settings defaultPort hardwareWorkers _).ok]
  exact ⟨numeral_decimal port (Nat.le_of_lt_succ settings.port.isLt),
    numeral_decimal workers (Nat.le_pred_of_lt word), numeral_decimal business (Nat.le_pred_of_lt word')⟩

theorem Given.positive {argv : List Bytes} {index most initial value : Nat}
    (given : Given argv index most (some initial) value) (positive : 0 < initial) : 0 < value := by
  unfold Given at given
  split at given
  · cases given
    exact positive
  · exact given.2.2.2.1

theorem echo_settings_construct {defaultPort : BitVec 16} {hardwareWorkers : Nat} {argv : List Bytes}
    {settings : EchoSettings} (parsed : echoSettings defaultPort hardwareWorkers argv = .ok settings)
    (Cb κ T : Type) :
    (∃ group, WorkerGroup.construct settings.workers Cb = .ok group) ∧
      ∃ pool, ThreadPool.World.construct settings.businessWorkers κ T = .ok pool := by
  obtain ⟨-, workers, business⟩ := ((echo_settings _ _ _).ok settings).mp parsed
  have known : 0 < defaultWorkers hardwareWorkers := by
    unfold defaultWorkers
    split <;> omega
  have some_workers := workers.positive known
  have some_business := business.positive some_workers
  constructor
  · rw [WorkerGroup.construct, if_neg (Nat.ne_of_gt some_workers)]
    exact ⟨_, rfl⟩
  · rw [ThreadPool.World.construct, if_neg (Nat.ne_of_gt some_business)]
    exact ⟨_, rfl⟩

/-- The proxy is told where to listen and where to connect, or ends with its usage or the message
for the first argument that is wrong. -/
theorem proxy_settings (hardwareWorkers : Nat) (argv : List Bytes) :
    Parses (proxySettings hardwareWorkers argv)
      (fun settings => Given argv 1 65535 none settings.listenPort.toNat ∧
        argv[2]? = some settings.backendHost ∧ Given argv 3 65535 none settings.backendPort.toNat ∧
        Given argv 4 (2 ^ 64 - 1) (some (defaultWorkers hardwareWorkers)) settings.workers)
      (fun e => Fault argv 1 65535 (some usage) listenPort.error e ∨
        ∃ value : BitVec 16, Given argv 1 65535 none value.toNat ∧
          ((argv[2]? = none ∧ e = usage) ∨ ∃ host, argv[2]? = some host ∧
            (Fault argv 3 65535 (some usage) backendPort.error e ∨
              ∃ value : BitVec 16, Given argv 3 65535 none value.toNat ∧
                Fault argv 4 (2 ^ 64 - 1) none workerCount.error e))) := by
  have parses := (parseListenPort_parses argv).bind fun value =>
    (parseBackendHost_parses argv).bind fun host =>
      (parseBackendPort_parses argv).bind fun target =>
        (parseWorkerCount_parses 4 hardwareWorkers argv).bind fun workers =>
          Parses.pure (⟨value, host, target, workers⟩ : ProxySettings)
  refine ⟨fun settings => (parses.ok settings).trans ?_, fun e => (parses.error e).trans ?_⟩
  · constructor
    · rintro ⟨value, atPort, host, atHost, target, atTarget, workers, atWorkers, rfl⟩
      exact ⟨atPort, atHost, atTarget, atWorkers⟩
    · rintro ⟨atPort, atHost, atTarget, atWorkers⟩
      exact ⟨_, atPort, _, atHost, _, atTarget, _, atWorkers, rfl⟩
  · simp only [and_false, exists_false, or_false]

end CoroEpoll.Servers
