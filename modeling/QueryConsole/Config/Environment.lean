import QueryConsole.Config.Address
import QueryConsole.Request.Parameters
import QueryConsole.Store.Endpoint

namespace QueryConsole

structure Config where
  listen : Config.Address
  store : Store.Endpoint
  apiKey : Option String
  limits : Limits
  timeout : UInt64
  deriving DecidableEq

namespace Config

abbrev Environment := List (String × String)

inductive Fault : Type
  | unreadable : Fault
  | listenAddress : Fault
  | listenHost : Fault
  | addressUnresolved : Fault
  | hostUnresolved : Fault
  | noStore : Fault
  deriving DecidableEq

def Fault.message : Fault → String
  | .unreadable => "failed to parse CHMON_* environment variables"
  | .listenAddress => "invalid CHMON_LISTEN_ADDR value"
  | .listenHost => "invalid listen host/port combination"
  | .addressUnresolved => "CHMON_LISTEN_ADDR resolved to no addresses"
  | .hostUnresolved => "listen address resolved to no targets"
  | .noStore => "CHMON_CLICKHOUSE_URL or CLICKHOUSE_URL must be set"

def foldChar (c : Char) : Char :=
  if c = '\u212a' then 'k' else c.toLower

def foldName (name : String) : String :=
  String.ofList (name.toList.map foldChar)

namespace Environment

def get (env : Environment) (name : String) : Except Fault (Option String) :=
  match env.filter fun setting => foldName setting.1 == foldName name with
  | [] => .ok none
  | [setting] => .ok (some setting.2)
  | _ => .error .unreadable

def getNumber {α : Type} (number? : String → Option α) (env : Environment) (name : String) :
    Except Fault (Option α) := do
  match ← env.get name with
  | none => return none
  | some s =>
    match number? s with
    | some n => return some n
    | none => throw .unreadable

def getUInt64 (env : Environment) (name : String) (default : UInt64) : Except Fault UInt64 := do
  return (← env.getNumber Decimal.uint64? name).getD default

end Environment

def firstAddress (notAddress notFound : Fault) : Option (List Address) → Except Fault Address
  | none => .error notAddress
  | some [] => .error notFound
  | some (a :: _) => .ok a

def listenAddress (lookup : HostLookup) (address host : Option String)
    (portNumber : Option UInt16) : Except Fault Address :=
  match address with
  | some s => firstAddress .listenAddress .addressUnresolved (Address.resolve? lookup s)
  | none =>
    firstAddress .listenHost .hostUnresolved (Address.resolve? lookup
      (host.getD "0.0.0.0" ++ ":" ++ toString (portNumber.getD 8490).toNat))

def limitsOf (default most adhoc : UInt64) : Limits :=
  let default := max default 1
  ⟨default, max most default, max adhoc 1⟩

def ofEnvironment (lookup : HostLookup) (env : Environment) : Except Fault Config := do
  let address ← env.get "CHMON_LISTEN_ADDR"
  let host ← env.get "CHMON_LISTEN_HOST"
  let portNumber ← env.getNumber Decimal.uint16? "CHMON_LISTEN_PORT"
  let storeUrl ← env.get "CHMON_CLICKHOUSE_URL"
  let sharedUrl ← env.get "CLICKHOUSE_URL"
  let user ← env.get "CHMON_CLICKHOUSE_USER"
  let password ← env.get "CHMON_CLICKHOUSE_PASSWORD"
  let database ← env.get "CHMON_CLICKHOUSE_DATABASE"
  let apiKey ← env.get "CHMON_API_KEY"
  let defaultLimit ← env.getUInt64 "CHMON_DEFAULT_LIMIT" 100
  let mostLimit ← env.getUInt64 "CHMON_MAX_LIMIT" 1000
  let adhocLimit ← env.getUInt64 "CHMON_ADHOC_DEFAULT_LIMIT" 1000
  let timeout ← env.getUInt64 "CHMON_REQUEST_TIMEOUT_SECS" 30
  let listen ← listenAddress lookup address host portNumber
  match storeUrl <|> sharedUrl with
  | none => .error .noStore
  | some url =>
    .ok
      { listen
        store :=
          { url
            database := database.getD "system"
            user := user.getD "default"
            password := password.filter fun s => !s.isEmpty }
        apiKey := apiKey.filter fun s => !Text.isBlankText s
        limits := limitsOf defaultLimit mostLimit adhocLimit
        timeout := max timeout 1 }

end Config

end QueryConsole
