import FrozenGlobals.Number.Integer
import FrozenGlobals.Text.Quoted

/-!
# Flags

The flags of a command. A flag is written with one or two hyphens; its value follows behind an
equals sign or, except for switches, as the next argument. Flags end at the first argument that is
none, or at two hyphens.
-/

namespace FrozenGlobals.Command

/-- What a flag takes, with the value it has when it is not given. -/
inductive FlagKind where
  | text (value : String)
  | switch (value : Bool)
  | integer (value : Int)
deriving DecidableEq, Repr, Inhabited

/-- A flag of a command. -/
structure Flag where
  name : String
  usage : String
  kind : FlagKind
deriving DecidableEq, Repr, Inhabited

/-- The value of a flag. -/
inductive FlagValue where
  | text (value : String)
  | switch (value : Bool)
  | integer (value : Int)
deriving DecidableEq, Repr, Inhabited

/-- Why arguments cannot be read. -/
inductive FlagFault where
  | malformed (argument : String)
  | unknown (name : String)
  | needsValue (name : String)
  | badSwitch (name value : String)
  | badInteger (name value : String) (fault : Number.IntegerFault)
  /-- The usage was asked for. -/
  | help
deriving DecidableEq, Repr, Inhabited

/-- A line about the fault, if there is anything to say. -/
def FlagFault.message? : FlagFault → Option String
  | .malformed argument => some ("bad flag syntax: " ++ argument)
  | .unknown name => some ("flag provided but not defined: -" ++ name)
  | .needsValue name => some ("flag needs an argument: -" ++ name)
  | .badSwitch name value =>
      some ("invalid boolean value " ++ Text.quote value ++ " for -" ++ name ++ ": parse error")
  | .badInteger name value fault =>
      some ("invalid value " ++ Text.quote value ++ " for flag -" ++ name ++ ": "
        ++ match fault with
          | .malformed => "parse error"
          | .outOfRange => "value out of range")
  | .help => none

/-- Arguments that have been read: flags with their values, the last one first, and the rest. -/
structure Arguments where
  given : List (String × FlagValue)
  rest : List String
deriving DecidableEq, Repr, Inhabited

namespace Arguments

/-- The value of a flag that was given. -/
def find? (a : Arguments) (name : String) : Option FlagValue := a.given.lookup name

def text? (a : Arguments) (name : String) : Option String :=
  match a.find? name with
  | some (.text value) => some value
  | _ => none

def switch? (a : Arguments) (name : String) : Option Bool :=
  match a.find? name with
  | some (.switch value) => some value
  | _ => none

def integer? (a : Arguments) (name : String) : Option Int :=
  match a.find? name with
  | some (.integer value) => some value
  | _ => none

end Arguments

/-- The truth value a text names. -/
def readSwitch? (text : String) : Option Bool :=
  if ["1", "t", "T", "TRUE", "true", "True"].contains text then some true
  else if ["0", "f", "F", "FALSE", "false", "False"].contains text then some false
  else none

/-- Splits a text at its first equals sign that is not its first character. -/
def splitAssignment (text : List Char) : String × Option String :=
  match text with
  | [] => ("", none)
  | c :: rest =>
      let name := rest.takeWhile (· != '=')
      (String.ofList (c :: name),
        match rest.drop name.length with
        | _ :: value => some (String.ofList value)
        | [] => none)

/-- An argument as a flag: its name and the value behind an equals sign. -/
inductive Word where
  /-- Not a flag. -/
  | plain
  /-- The end of the flags. -/
  | stop
  | flag (name : String) (value : Option String)
  | malformed

/-- What an argument is. -/
def Word.ofArgument (argument : String) : Word :=
  let named (cs : List Char) : Word :=
    match cs with
    | [] => .malformed
    | c :: _ =>
        if c == '-' || c == '=' then .malformed
        else
          let (name, value) := splitAssignment cs
          .flag name value
  match argument.toList with
  | ['-', '-'] => .stop
  | '-' :: '-' :: rest => named rest
  | '-' :: c :: rest => named (c :: rest)
  | _ => .plain

/-- The value of a flag. -/
def FlagKind.read (kind : FlagKind) (name value : String) : Except FlagFault FlagValue :=
  match kind with
  | .text _ => .ok (.text value)
  | .switch _ =>
      match readSwitch? value with
      | some b => .ok (.switch b)
      | none => .error (.badSwitch name value)
  | .integer _ =>
      match Number.readInteger value with
      | .ok i => .ok (.integer i)
      | .error fault => .error (.badInteger name value fault)

def FlagKind.isSwitch : FlagKind → Bool
  | .switch _ => true
  | _ => false

/-- Reads the arguments of a command. -/
def parse (flags : List Flag) (given : List (String × FlagValue)) :
    List String → Except FlagFault Arguments
  | [] => .ok ⟨given, []⟩
  | argument :: rest =>
      match Word.ofArgument argument with
      | .plain => .ok ⟨given, argument :: rest⟩
      | .stop => .ok ⟨given, rest⟩
      | .malformed => .error (.malformed argument)
      | .flag name value =>
          match flags.find? (·.name == name) with
          | none => .error (if name == "help" || name == "h" then .help else .unknown name)
          | some f =>
              match value, rest with
              | some value, rest => do
                  parse flags ((name, ← f.kind.read name value) :: given) rest
              | none, rest =>
                  if f.kind.isSwitch then parse flags ((name, .switch true) :: given) rest
                  else
                    match rest with
                    | value :: rest => do
                        parse flags ((name, ← f.kind.read name value) :: given) rest
                    | [] => .error (.needsValue name)

/-- The lines about one flag. A value is named unless it is the empty one of its kind. -/
def Flag.describe (f : Flag) : String :=
  let (takes, value) : String × String := match f.kind with
    | .text value => (" string", if value.isEmpty then "" else Text.quote value)
    | .switch value => ("", if value then "true" else "")
    | .integer value => (" int", if value == 0 then "" else toString value)
  let head := "  -" ++ f.name ++ takes
  head ++ (if head.utf8ByteSize ≤ 4 then "\t" else "\n    \t") ++ f.usage
    ++ (if value.isEmpty then "" else " (default " ++ value ++ ")") ++ "\n"

/-- The usage of a command. -/
def usage (command : String) (flags : List Flag) : String :=
  "Usage of " ++ command ++ ":\n"
    ++ String.join ((flags.mergeSort fun a b => a.name ≤ b.name).map Flag.describe)

/-- What is said about arguments that cannot be read. -/
def explain (command : String) (flags : List Flag) (fault : FlagFault) : String :=
  (match fault.message? with
    | some text => text ++ "\n"
    | none => "") ++ usage command flags

end FrozenGlobals.Command
