import HttpsServer.Config.KeyPath
import HttpsServer.Dispatch.Construction
import HttpsServer.Serve.Process

namespace HttpsServer.Serve

open Std
open HttpsServer.Data
open HttpsServer.Config
open HttpsServer.Dispatch

variable {Request : Type}

/-! From the command line to the two servers. -/

/-- What `main` finds outside of the program. -/
structure Platform where
  /-- The characters of a file, unless it cannot be opened. -/
  readFile : Text → Option Text
  /-- What the two port numbers hold before they are written. -/
  unwritten : PortType → Int16
  listens : Version → UInt16 → Bool
  filename : Text → Text
  useCertificateChainFile : Text → Bool
  usePrivateKeyFile : Text → Bool
  useTmpDhFile : Text → Bool
  memory : Version → CharArray maxLength

/-- How `main` is left before the io_services run. -/
inductive Exit where
  | returned (status : Nat)
  | undefined
  deriving DecidableEq

/-- An exception is caught at the end of `main`, which then returns 0. -/
def Exit.caught : Exit := .returned 0

/-- `substr` and the constructor of the proxy handler throw; an index out of range
or a null pointer does not. -/
def Exit.ofFault : Fault → Exit
  | .substrPosition | .badConfig => .caught
  | .tokenIndex | .nullChildBlock | .charIndex => .undefined

def attempt (succeeds : Bool) : Except Exit Unit :=
  if succeeds then .ok () else .error .caught

/-- The files of the https server, as its constructor reads the config again. -/
def useKeys (platform : Platform) (config : NginxConfig) : Except Exit Unit :=
  match getKeyPath config KeyPaths.fresh with
  | none => .error .caught
  | some (_, paths) => do
      attempt (platform.useCertificateChainFile
        (platform.filename paths.sslPublicPath))
      attempt (platform.usePrivateKeyFile
        (platform.filename paths.sslPrivatePath))
      attempt (platform.useTmpDhFile "dhparam4096.pem".toList)

def useVersion (platform : Platform) (config : NginxConfig) :
    Version → Except Exit Unit
  | .http => .ok ()
  | .https => useKeys platform config

def newServerAt (platform : Platform) (version : Version) (port : Int16)
    (handlerInfo : TreeMap Text Text compare) (config : NginxConfig) :
    Except Exit (Server Request × TreeMap Text Text compare) := do
  attempt (platform.listens version port.toUInt16)
  useVersion platform config version
  (Server.newServer version ⟨0, ∅⟩ handlerInfo (platform.memory version)
    config).mapError Exit.ofFault

/-- The port numbers of the two servers. That of the https server is used whether
it was found or not, and the keys are only looked for to be logged. -/
def getPorts (platform : Platform) (config : NginxConfig) :
    Except Exit (Version → Int16) :=
  match getPortNumber config .http (platform.unwritten .http) with
  | .raised => .error .caught
  | .returned false _ => .error (.returned 1)
  | .returned true portNumber =>
      match getPortNumber config .https (platform.unwritten .https) with
      | .raised => .error .caught
      | .returned found sslPortNumber =>
          if found && (getKeyPath config KeyPaths.fresh).isNone then
            .error .caught
          else
            .ok fun
              | .http => portNumber
              | .https => sslPortNumber

def startServers (platform : Platform) (config : NginxConfig) :
    Except Exit (Process Request × (Version → UInt16)) := do
  let ports ← getPorts platform config
  let (http, handlerInfo) ← newServerAt platform .http (ports .http) ∅ config
  let (https, _) ← newServerAt platform .https (ports .https) handlerInfo config
  let server
    | .http => http
    | .https => https
  .ok (⟨server, ⟨0, ∅⟩⟩, fun version => (ports version).toUInt16)

/-- Up to the point where the io_services run, with the servers and the ports that
they listen at. -/
def main (platform : Platform) (arguments : List Text) :
    Except Exit (Process Request × (Version → UInt16)) :=
  match arguments with
  | [_, fileName] =>
      match platform.readFile fileName with
      | none => .error (.returned 1)
      | some text =>
          match parse text (.mk []) with
          | .returned true config => startServers platform config
          | .returned false _ => .error (.returned 1)
          | .undefined | .outOfCalls => .error .undefined
  | _ => .error (.returned 1)

/-! When the servers are started. -/

/-- The port is the number in the config. Where that has none in range, the https
server listens at whatever the variable holds. -/
def DeclaresPort (platform : Platform) (config : NginxConfig) (port : UInt16) :
    Version → Prop
  | .http => declaredNumber? .http config = some port.toNat
  | .https => declaredNumber? .https config = some port.toNat ∨
      port = (platform.unwritten .https).toUInt16 ∧
        ∀ number, declaredNumber? .https config = some number →
          65535 < number ∧ number ≤ 2147483647

/-- The files that the config names for the keys can be used. -/
def KeysUsable (platform : Platform) (config : NginxConfig) : Prop :=
  ∃ found paths, getKeyPath config KeyPaths.fresh = some (found, paths) ∧
    platform.useCertificateChainFile (platform.filename paths.sslPublicPath) =
      true ∧
    platform.usePrivateKeyFile (platform.filename paths.sslPrivatePath) = true ∧
    platform.useTmpDhFile "dhparam4096.pem".toList = true

/-- Nothing fails in either constructor. -/
structure Startable (platform : Platform) (config : NginxConfig)
    (ports : Version → UInt16) : Prop where
  declared : ∀ version, DeclaresPort platform config (ports version) version
  listens : ∀ version, platform.listens version (ports version) = true
  keys : KeysUsable platform config
  constructible : Constructible config.statements

/-- The last part of a path names a file that can be used, unless it is empty. -/
def quietPlatform (text : Text) : Platform where
  readFile _ := some text
  unwritten _ := 0
  listens _ _ := true
  filename path := (path.reverse.takeWhile (· ≠ '/')).reverse
  useCertificateChainFile file := !file.isEmpty
  usePrivateKeyFile file := !file.isEmpty
  useTmpDhFile _ := true
  memory _ := .zeroed maxLength

example : Startable (quietPlatform [])
    (.mk [.mk ["listen".toList, "80".toList] none,
      .mk ["ssl-port".toList, "443".toList] none,
      .mk ["private_key_root".toList, "/k/key.pem".toList] none,
      .mk ["public_key_root".toList, "/k/cert.pem".toList] none])
    (fun version => if version = .http then 80 else 443) where
  declared version := by
    cases version with
    | http =>
        rw [DeclaresPort]
        decide +kernel
    | https => exact .inl (by decide +kernel)
  listens _ := rfl
  keys := ⟨true, ⟨"/k/key.pem".toList, "/k/cert.pem".toList⟩,
    by decide +kernel, by decide +kernel, by decide +kernel, rfl⟩
  constructible := by
    refine (newDispatcher_ok_iff ∅ ?_).mp ⟨_, rfl⟩
    simp [NginxConfig.Every, EveryStatement, NginxConfigStatement.Every]

theorem attempt_ok_iff (succeeds : Bool) :
    attempt succeeds = .ok () ↔ succeeds = true := by
  cases succeeds with
  | true => exact iff_of_true rfl rfl
  | false => exact iff_of_false (by rintro ⟨⟩) (by simp)

theorem bind_unit_ok_iff {Result : Type} {action : Except Exit Unit}
    {next : Unit → Except Exit Result} {result : Result} :
    (action >>= next) = .ok result ↔
      action = .ok () ∧ next () = .ok result := by
  constructor
  · intro run
    obtain ⟨_, done, later⟩ := Fold.bind_ok run
    exact ⟨done, later⟩
  · rintro ⟨done, later⟩
    rw [done]
    exact later

theorem mapError_ok_iff {Result : Type} {action : Except Fault Result}
    {result : Result} :
    action.mapError Exit.ofFault = .ok result ↔ action = .ok result := by
  cases action with
  | error fault => exact iff_of_false (by rintro ⟨⟩) (by rintro ⟨⟩)
  | ok value => exact ⟨fun same => by cases same; rfl,
      fun same => by cases same; rfl⟩

theorem useKeys_ok_iff (platform : Platform) (config : NginxConfig) :
    useKeys platform config = .ok () ↔ KeysUsable platform config := by
  unfold useKeys KeysUsable
  cases getKeyPath config KeyPaths.fresh with
  | none => exact iff_of_false (by rintro ⟨⟩) (by simp)
  | some read =>
      obtain ⟨found, paths⟩ := read
      simp [bind_unit_ok_iff, attempt_ok_iff]

theorem newServerAt_ok_iff {platform : Platform} {version : Version}
    {port : Int16} {info : TreeMap Text Text compare} {config : NginxConfig}
    {made : Server Request × TreeMap Text Text compare} :
    newServerAt platform version port info config = .ok made ↔
      platform.listens version port.toUInt16 = true ∧
      (version = .https → KeysUsable platform config) ∧
      Server.newServer version ⟨0, ∅⟩ info (platform.memory version) config =
        .ok made := by
  unfold newServerAt
  cases version with
  | http => simp [bind_unit_ok_iff, attempt_ok_iff, mapError_ok_iff, useVersion]
  | https =>
      simp [bind_unit_ok_iff, attempt_ok_iff, mapError_ok_iff, useVersion,
        useKeys_ok_iff]

theorem toUInt16_ofNat {number : Nat} (fits : number ≤ 65535) :
    (Int16.ofNat number).toUInt16.toNat = number := by
  rw [Int16.toUInt16_ofNat', UInt16.toNat_ofNat']
  exact Nat.mod_eq_of_lt (Nat.lt_succ_of_le fits)

theorem getPorts_ok {platform : Platform} {config : NginxConfig}
    {ports : Version → Int16} (got : getPorts platform config = .ok ports)
    (version : Version) :
    DeclaresPort platform config (ports version).toUInt16 version := by
  unfold getPorts at got
  split at got
  next => cases got
  next => cases got
  next portNumber http =>
    split at got
    next => cases got
    next found sslPortNumber https =>
      split at got
      next => cases got
      next =>
        cases got
        cases version with
        | http =>
            obtain ⟨number, declared, fits, rfl⟩ :=
              getPortNumber_true_iff.mp http
            rw [DeclaresPort, toUInt16_ofNat fits]
            exact declared
        | https =>
            cases found with
            | true =>
                obtain ⟨number, declared, fits, rfl⟩ :=
                  getPortNumber_true_iff.mp https
                rw [DeclaresPort, toUInt16_ofNat fits]
                exact .inl declared
            | false =>
                obtain ⟨rfl, outside⟩ := getPortNumber_false_iff.mp https
                exact .inr ⟨rfl, outside⟩

theorem getPortNumber_toNat {config : NginxConfig} {portType : PortType}
    {port : UInt16} (declared : declaredNumber? portType config = some port.toNat)
    (portNumber : Int16) :
    getPortNumber config portType portNumber =
      .returned true (Int16.ofNat port.toNat) :=
  getPortNumber_true_iff.mpr
    ⟨port.toNat, declared, Nat.le_of_lt_succ port.toNat_lt, rfl⟩

theorem toUInt16_ofNat_toNat (port : UInt16) :
    (Int16.ofNat port.toNat).toUInt16 = port := by
  rw [Int16.toUInt16_ofNat', UInt16.ofNat_toNat]

theorem getPorts_exists {platform : Platform} {config : NginxConfig}
    {ports : Version → UInt16}
    (declared : ∀ version, DeclaresPort platform config (ports version) version)
    (keys : KeysUsable platform config) :
    ∃ numbers, getPorts platform config = .ok numbers ∧
      ∀ version, (numbers version).toUInt16 = ports version := by
  have http := getPortNumber_toNat (declared .http) (platform.unwritten .http)
  have someKeys : (getKeyPath config KeyPaths.fresh).isNone = false := by
    obtain ⟨found, paths, read, _⟩ := keys
    rw [read]
    rfl
  have ported : ∃ found sslPortNumber,
      getPortNumber config .https (platform.unwritten .https) =
        .returned found sslPortNumber ∧
      sslPortNumber.toUInt16 = ports .https := by
    rcases declared .https with given | ⟨same, outside⟩
    · exact ⟨true, _, getPortNumber_toNat given _, toUInt16_ofNat_toNat _⟩
    · exact ⟨false, _, getPortNumber_false_iff.mpr ⟨rfl, outside⟩, same.symm⟩
  obtain ⟨found, sslPortNumber, https, sslPort⟩ := ported
  refine ⟨fun
    | .http => Int16.ofNat (ports .http).toNat
    | .https => sslPortNumber, ?_, ?_⟩
  · simp only [getPorts, http, https, someKeys, Bool.and_false]
    rfl
  · intro version
    cases version with
    | http => exact toUInt16_ofNat_toNat _
    | https => exact sslPort

/-- The process that is started is the one of the config. -/
theorem startServers_ok_iff {platform : Platform} {config : NginxConfig}
    {process : Process Request} {ports : Version → UInt16} :
    startServers platform config = .ok (process, ports) ↔
      (∃ numbers, getPorts platform config = .ok numbers ∧
        ∀ version, (numbers version).toUInt16 = ports version) ∧
      (∀ version, platform.listens version (ports version) = true) ∧
      KeysUsable platform config ∧
      ∃ lastInfo, Process.newProcess ⟨0, ∅⟩ ∅ platform.memory config =
        .ok (process, lastInfo) := by
  constructor
  · intro started
    obtain ⟨numbers, got, started⟩ := Fold.bind_ok started
    obtain ⟨⟨http, middleInfo⟩, first, started⟩ := Fold.bind_ok started
    obtain ⟨⟨https, lastInfo⟩, second, started⟩ := Fold.bind_ok started
    cases started
    obtain ⟨httpListens, _, httpMade⟩ := newServerAt_ok_iff.mp first
    obtain ⟨httpsListens, keys, httpsMade⟩ := newServerAt_ok_iff.mp second
    refine ⟨⟨numbers, got, fun _ => rfl⟩, ?_, keys rfl, lastInfo, ?_⟩
    · intro version
      cases version with
      | http => exact httpListens
      | https => exact httpsListens
    · exact Process.newProcess_made httpMade httpsMade
  · rintro ⟨⟨numbers, got, same⟩, listens, keys, lastInfo, constructed⟩
    obtain ⟨⟨http, middleInfo⟩, httpMade, constructed⟩ :=
      Fold.bind_ok constructed
    obtain ⟨⟨https, finalInfo⟩, httpsMade, constructed⟩ :=
      Fold.bind_ok constructed
    cases constructed
    have first : newServerAt platform .http (numbers .http) ∅ config =
        .ok (http, middleInfo) :=
      newServerAt_ok_iff.mpr ⟨same .http ▸ listens .http, fun _ => keys, httpMade⟩
    have second : newServerAt platform .https (numbers .https) middleInfo
        config = .ok (https, lastInfo) :=
      newServerAt_ok_iff.mpr
        ⟨same .https ▸ listens .https, fun _ => keys, httpsMade⟩
    rw [startServers, got]
    dsimp only [bind, Except.bind]
    rw [first]
    dsimp only
    rw [second]
    exact congrArg (fun ports => Except.ok (_, ports)) (funext same)

theorem newProcess_ok_iff (statics : Statics)
    (info : TreeMap Text Text compare) (memory : Version → CharArray maxLength)
    {config : NginxConfig} (tokenized : config.Tokenized) :
    (∃ (process : Process Request) (lastInfo : TreeMap Text Text compare),
      Process.newProcess statics info memory config =
        .ok (process, lastInfo)) ↔
      Constructible config.statements := by
  rw [← newDispatcher_ok_iff info tokenized]
  constructor
  · rintro ⟨process, lastInfo, constructed⟩
    obtain ⟨⟨http, middleInfo⟩, made, _⟩ := Fold.bind_ok constructed
    obtain ⟨dispatcher, constructs, _⟩ := Fold.bind_ok made
    exact ⟨dispatcher, constructs⟩
  · rintro ⟨⟨dispatcher, middleInfo⟩, constructs⟩
    obtain ⟨lastInfo, constructed⟩ :=
      Process.newProcess_ok constructs statics memory
    exact ⟨_, lastInfo, constructed⟩

theorem startServers_iff {platform : Platform} {config : NginxConfig}
    (tokenized : config.Tokenized) (ports : Version → UInt16) :
    (∃ process : Process Request,
      startServers platform config = .ok (process, ports)) ↔
      Startable platform config ports := by
  constructor
  · rintro ⟨process, started⟩
    obtain ⟨⟨numbers, got, same⟩, listens, keys, lastInfo, constructed⟩ :=
      startServers_ok_iff.mp started
    refine ⟨fun version => ?_, listens, keys, ?_⟩
    · rw [← same version]
      exact getPorts_ok got version
    · exact (newProcess_ok_iff ⟨0, ∅⟩ ∅ platform.memory tokenized).mp
        ⟨process, lastInfo, constructed⟩
  · rintro ⟨declared, listens, keys, constructible⟩
    obtain ⟨process, lastInfo, constructed⟩ :=
      (newProcess_ok_iff ⟨0, ∅⟩ ∅ platform.memory tokenized).mpr constructible
    exact ⟨process, startServers_ok_iff.mpr
      ⟨getPorts_exists declared keys, listens, keys, lastInfo, constructed⟩⟩

theorem main_ok_iff {platform : Platform} {arguments : List Text}
    {started : Process Request × (Version → UInt16)} :
    main platform arguments = .ok started ↔
      ∃ program fileName text config, arguments = [program, fileName] ∧
        platform.readFile fileName = some text ∧
        parse text (.mk []) = .returned true config ∧
        startServers platform config = .ok started := by
  constructor
  · intro run
    unfold main at run
    split at run
    next program fileName =>
      split at run
      next => cases run
      next text readable =>
        split at run
        next config accepted =>
          exact ⟨program, fileName, text, config, rfl, readable, accepted, run⟩
        next => cases run
        next => cases run
        next => cases run
    next => cases run
  · rintro ⟨program, fileName, text, config, rfl, readable, accepted, started⟩
    simp only [main, readable, accepted, started]

/-- `main` starts the servers exactly when the file of its only argument is a
config that names an http port, whose handlers can be constructed and whose keys
can be used, at ports that are free. -/
theorem main_starts_iff (platform : Platform) (arguments : List Text)
    (ports : Version → UInt16) :
    (∃ process : Process Request,
      main platform arguments = .ok (process, ports)) ↔
    ∃ program fileName text config, arguments = [program, fileName] ∧
      platform.readFile fileName = some text ∧
      parse text (.mk []) = .returned true config ∧
      Startable platform config ports := by
  simp only [main_ok_iff]
  constructor
  · rintro ⟨process, program, fileName, text, config, same, readable, accepted,
      started⟩
    exact ⟨program, fileName, text, config, same, readable, accepted,
      (startServers_iff (parse_tokenized accepted) ports).mp ⟨process, started⟩⟩
  · rintro ⟨program, fileName, text, config, same, readable, accepted,
      startable⟩
    obtain ⟨process, started⟩ :=
      (startServers_iff (parse_tokenized accepted) ports).mpr startable
    exact ⟨process, program, fileName, text, config, same, readable, accepted,
      started⟩

/-! Which status is returned. -/

theorem attempt_error {succeeds : Bool} {exit : Exit}
    (failed : attempt succeeds = .error exit) : exit = .caught := by
  cases succeeds with
  | true => cases failed
  | false => cases failed; rfl

theorem useKeys_error {platform : Platform} {config : NginxConfig} {exit : Exit}
    (failed : useKeys platform config = .error exit) : exit = .caught := by
  unfold useKeys at failed
  split at failed
  next => cases failed; rfl
  next found paths _ =>
    rcases Fold.bind_error failed with refused | ⟨_, _, failed⟩
    · exact attempt_error refused
    rcases Fold.bind_error failed with refused | ⟨_, _, failed⟩
    · exact attempt_error refused
    · exact attempt_error failed

theorem ofFault_ne_one (fault : Fault) : Exit.ofFault fault ≠ .returned 1 := by
  cases fault <;> decide

/-- Neither an exception nor undefined behaviour in a constructor is status 1. -/
theorem newServerAt_ne_one (platform : Platform) (version : Version)
    (port : Int16) (info : TreeMap Text Text compare) (config : NginxConfig) :
    (newServerAt platform version port info config :
      Except Exit (Server Request × TreeMap Text Text compare)) ≠
        .error (.returned 1) := by
  have caught : Exit.returned 1 ≠ .caught := by decide
  intro failed
  rcases Fold.bind_error failed with refused | ⟨_, _, failed⟩
  · exact caught (attempt_error refused)
  rcases Fold.bind_error failed with refused | ⟨_, _, failed⟩
  · cases version with
    | http => cases refused
    | https => exact caught (useKeys_error refused)
  · cases made : (Server.newServer version ⟨0, ∅⟩ info
        (platform.memory version) config :
          Except Fault (Server Request × TreeMap Text Text compare)) with
    | ok server =>
        rw [made] at failed
        cases failed
    | error fault =>
        rw [made] at failed
        exact ofFault_ne_one fault (Except.error.inj failed)

theorem getPorts_one_iff (platform : Platform) (config : NginxConfig) :
    getPorts platform config = .error (.returned 1) ↔
      ∀ number, declaredNumber? .http config = some number →
        65535 < number ∧ number ≤ 2147483647 := by
  unfold getPorts
  cases http : getPortNumber config .http (platform.unwritten .http) with
  | raised =>
      refine iff_of_false (by rintro ⟨⟩) fun outside => ?_
      have missed := getPortNumber_false_iff.mpr
        ⟨Eq.refl (platform.unwritten .http), outside⟩
      rw [http] at missed
      cases missed
  | returned found portNumber =>
      cases found with
      | false => exact iff_of_true rfl (getPortNumber_false_iff.mp http).2
      | true =>
          obtain ⟨number, declared, fits, _⟩ := getPortNumber_true_iff.mp http
          refine iff_of_false ?_ fun outside =>
            Nat.not_lt_of_le fits (outside number declared).1
          dsimp only
          split
          next => rintro ⟨⟩
          next =>
            split
            next => rintro ⟨⟩
            next => rintro ⟨⟩

theorem startServers_one_iff (platform : Platform) (config : NginxConfig) :
    (startServers platform config :
        Except Exit (Process Request × (Version → UInt16))) =
      .error (.returned 1) ↔
    ∀ number, declaredNumber? .http config = some number →
      65535 < number ∧ number ≤ 2147483647 := by
  rw [← getPorts_one_iff platform config]
  constructor
  · intro failed
    rcases Fold.bind_error failed with noPort | ⟨_, _, failed⟩
    · exact noPort
    rcases Fold.bind_error failed with refused | ⟨_, _, failed⟩
    · exact absurd refused (newServerAt_ne_one _ _ _ _ _)
    · exact absurd (Fold.bind_pure_error failed) (newServerAt_ne_one _ _ _ _ _)
  · intro noPort
    rw [startServers, noPort]
    rfl

/-- `main` returns 1 exactly when it has no such argument, or the config in the file
has no http port that is a number in range; all that fails later ends it otherwise. -/
theorem main_returns_one_iff (platform : Platform) (arguments : List Text) :
    (main platform arguments :
        Except Exit (Process Request × (Version → UInt16))) =
      .error (.returned 1) ↔
    ∀ program fileName text config, arguments = [program, fileName] →
      platform.readFile fileName = some text →
      parse text (.mk []) = .returned true config →
      ∀ number, declaredNumber? .http config = some number →
        65535 < number ∧ number ≤ 2147483647 := by
  constructor
  · rintro failed program fileName text config rfl readable accepted
    simp only [main, readable, accepted] at failed
    exact (startServers_one_iff platform config).mp failed
  · intro outside
    unfold main
    split
    next program fileName =>
      split
      next => rfl
      next text readable =>
        obtain ⟨valid, config, returned⟩ := parse_returns text (.mk [])
        rw [returned]
        cases valid with
        | false => rfl
        | true =>
            exact (startServers_one_iff platform config).mpr
              (outside program fileName text config rfl readable returned)
    next => rfl

/-! A config without a certificate. -/

theorem readKeyStatements_unmentioned {statements : List NginxConfigStatement}
    (unmentioned : ∀ nested ∈ allStatementsOf statements,
      ¬ nested.mentions publicKeyRoot = true) {paths last : KeyPaths}
    (run : statements.foldlM readKeyStatement paths = some last) :
    last.sslPublicPath = paths.sslPublicPath := by
  rw [allStatementsOf_eq] at unmentioned
  induction statements generalizing paths with
  | nil =>
      cases run
      rfl
  | cons statement statements induction =>
      rw [List.flatMap_cons] at unmentioned
      obtain ⟨middle, head, run⟩ := Option.bind_eq_some_iff.mp run
      rw [induction (fun nested member => unmentioned nested
        (List.mem_append_right _ member)) run]
      obtain ⟨privatePath, _, head⟩ := Option.bind_eq_some_iff.mp head
      obtain ⟨publicPath, read, head⟩ := Option.bind_eq_some_iff.mp head
      rw [readKeyPath_other isKeyword_publicKeyRoot fun nested member =>
        unmentioned nested (List.mem_append_left _ member)] at read
      cases read
      cases head
      rfl

theorem getKeyPath_unmentioned {config : NginxConfig}
    (unmentioned : config.firstMention publicKeyRoot = none) {found : Bool}
    {paths : KeyPaths}
    (read : getKeyPath config KeyPaths.fresh = some (found, paths)) :
    paths.sslPublicPath = [] := by
  obtain ⟨statements⟩ := config
  obtain ⟨last, run, result⟩ := Option.bind_eq_some_iff.mp read
  cases result
  exact readKeyStatements_unmentioned (List.find?_eq_none.mp unmentioned) run

/-- A config that does not mention a certificate is not served over http either, as
the https server is constructed all the same. -/
theorem main_uncertified {platform : Platform}
    (refused : platform.useCertificateChainFile (platform.filename []) = false)
    {program fileName text : Text} {config : NginxConfig}
    (readable : platform.readFile fileName = some text)
    (accepted : parse text (.mk []) = .returned true config)
    (unmentioned : config.firstMention publicKeyRoot = none)
    (started : Process Request × (Version → UInt16)) :
    main platform [program, fileName] ≠ .ok started := by
  obtain ⟨process, ports⟩ := started
  intro run
  obtain ⟨_, _, _, _, same, alsoReadable, alsoAccepted, startable⟩ :=
    (main_starts_iff platform _ ports).mp ⟨process, run⟩
  cases same
  obtain rfl := Option.some.inj (readable.symm.trans alsoReadable)
  obtain ⟨_, rfl⟩ := ParseResult.returned.inj (accepted.symm.trans alsoAccepted)
  obtain ⟨found, paths, read, usable, _⟩ := startable.keys
  rw [getKeyPath_unmentioned unmentioned read, refused] at usable
  contradiction

theorem main_uncertified_listen :
    ¬ ∃ started : Process Unit × (Version → UInt16),
      main (quietPlatform "listen 80;".toList) [[], []] = .ok started := by
  rintro ⟨started, run⟩
  have accepted : parse "listen 80;".toList (.mk []) =
      .returned true (.mk [.mk ["listen".toList, "80".toList] none]) := rfl
  exact main_uncertified rfl rfl accepted rfl started run

end HttpsServer.Serve
