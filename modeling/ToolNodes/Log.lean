/-!
# Log messages

The registry and the client report what they do as messages with a level. Whoever owns the session
decides where they go: `Console` is the form in which they are shown to people, one line each, with
debug messages only when it is verbose.
-/

namespace ToolNodes

inductive Level where
  | debug
  | info
  | warn
  | error
deriving DecidableEq, Repr

def Level.name : Level → String
  | debug => "DEBUG"
  | info => "INFO"
  | warn => "WARN"
  | error => "ERROR"

structure Message where
  level : Level
  text : String
deriving DecidableEq, Repr

namespace Message

def debug (text : String) : Message := ⟨.debug, text⟩

def info (text : String) : Message := ⟨.info, text⟩

def warn (text : String) : Message := ⟨.warn, text⟩

def error (text : String) : Message := ⟨.error, text⟩

end Message

structure Console where
  label : String := "[yxi]"
  verbose : Bool := false

/-- The line of a message, none for a debug message on a console that is not verbose. -/
def Console.line? (console : Console) (message : Message) : Option String :=
  if message.level = .debug && !console.verbose then none
  else some (console.label ++ " " ++ message.level.name ++ ": " ++ message.text ++ "\n")

def Console.text (console : Console) (messages : List Message) : String :=
  String.join (messages.filterMap console.line?)

end ToolNodes
