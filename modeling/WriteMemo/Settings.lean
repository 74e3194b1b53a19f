import WriteMemo.Key
import WriteMemo.Text.Basic

namespace WriteMemo

structure Settings where
  capacity : UInt64
  keyStrategy : KeyStrategy
  statsInterval : UInt64
  deriving DecidableEq

namespace Settings

-- No limit on the number of entries, and a report every minute.
def standard : Settings := ⟨0, .generateName, 60⟩

instance : Inhabited Settings := ⟨standard⟩

def isBounded (settings : Settings) : Bool := 0 < settings.capacity

inductive Setting where
  | capacity
  | keyStrategy
  | statsInterval
  deriving DecidableEq

-- The variable that holds it.
def Setting.name : Setting → String
  | .capacity => "REPO_CACHE_CAPACITY"
  | .keyStrategy => "REPO_CACHE_KEY_STRATEGY"
  | .statsInterval => "REPO_CACHE_STATS_INTERVAL"

-- A setting and the value of its variable that cannot be used.
structure Fault where
  setting : Setting
  value : List Char
  deriving DecidableEq

def Fault.reason (fault : Fault) : String :=
  match fault.setting with
  | .capacity | .statsInterval => "expected a non-negative integer"
  | .keyStrategy => "expected `generate-name` or `content-hash`"

def Fault.message (fault : Fault) : String :=
  "Invalid configuration " ++ fault.setting.name ++ "=" ++
    String.ofList (Text.shown fault.value) ++ ": " ++ fault.reason

-- Digits, at least one, with a value of 64 bits.
def natural? (digits : List Char) : Option UInt64 :=
  if digits.isEmpty || !digits.all Char.isDigit then none
  else
    let value := Nat.ofDigitChars 10 digits 0
    if h : value < UInt64.size then some (UInt64.ofNatLT value h) else none

def dropSign : List Char → List Char
  | '+' :: rest => rest
  | text => text

-- Blanks around the number and one plus sign in front are allowed. A fault keeps the whole text.
def readNumber (setting : Setting) (text : List Char) : Except Fault UInt64 :=
  match natural? (dropSign (Text.trim text)) with
  | some value => .ok value
  | none => .error ⟨setting, text⟩

-- Blanks around the name and the case of its letters do not matter, also in a fault.
def readStrategy (text : List Char) : Except Fault KeyStrategy :=
  let name := (Text.trim text).map Char.toLower
  match KeyStrategy.ofText? name with
  | some strategy => .ok strategy
  | none => .error ⟨.keyStrategy, name⟩

def readOr {α : Type} (default : α) (read : List Char → Except Fault α) :
    Option String → Except Fault α
  | none => .ok default
  | some text => read text.toList

-- The settings read, and those whose variables were asked for.
def load (lookup : String → Option String) : Except Fault Settings × List Setting :=
  match readOr standard.capacity (readNumber .capacity) (lookup Setting.capacity.name) with
  | .error fault => (.error fault, [.capacity])
  | .ok capacity =>
    match readOr standard.keyStrategy readStrategy (lookup Setting.keyStrategy.name) with
    | .error fault => (.error fault, [.capacity, .keyStrategy])
    | .ok strategy =>
      match readOr standard.statsInterval (readNumber .statsInterval)
          (lookup Setting.statsInterval.name) with
      | .error fault => (.error fault, [.capacity, .keyStrategy, .statsInterval])
      | .ok interval =>
        (.ok ⟨capacity, strategy, interval⟩, [.capacity, .keyStrategy, .statsInterval])

end Settings

end WriteMemo
