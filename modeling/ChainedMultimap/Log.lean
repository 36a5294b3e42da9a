import ChainedMultimap.Object.Kind

/-!
# Log records

What the library reports while it works. Operations hand their records back in order; writing them
anywhere is the caller's choice.
-/

namespace ChainedMultimap

/-- How much attention a record deserves. -/
inductive LogLevel where
  | debug
  | info
  | warn
  deriving DecidableEq

/-- The name of a level. -/
def LogLevel.name : LogLevel → String
  | debug => "DEBUG"
  | info => "INFO"
  | warn => "WARN"

/-- An error of the operating system. -/
structure SystemFault where
  /-- The error number. -/
  code : Nat
  /-- What the number stands for. -/
  description : String
  deriving DecidableEq

namespace SystemFault

/-- No file descriptor is left. -/
def tooManyOpenFiles : SystemFault := ⟨24, "Too many open files"⟩

/-- A read would have to wait. -/
def temporarilyUnavailable : SystemFault := ⟨11, "Resource temporarily unavailable"⟩

/-- The description with the error number behind it. -/
def text (fault : SystemFault) : String :=
  fault.description ++ " (os error " ++ Nat.repr fault.code ++ ")"

end SystemFault

/-- Events worth a record. -/
inductive LogRecord where
  /-- A table was made. -/
  | tableInitialized (key yield : ObjectKind) (buckets : Nat)
  /-- A rebuild starts, whether or not its bucket array can be reserved. -/
  | tableResizing (current requested : Nat)
  /-- A growing table has reached the largest bucket array. -/
  | tableAtMaximum (buckets : Nat)
  /-- A table was given up. -/
  | tableDestroyed (buckets : Nat)
  /-- A Zobrist table was filled. -/
  | zobristBuilt (length : Nat)
  /-- The process secret was generated. -/
  | secretInitialized
  /-- The operating system supplied no entropy. -/
  | noSystemEntropy
  /-- The entropy device could not be opened. -/
  | deviceNotOpened (fault : SystemFault)
  /-- The entropy device could not be read. -/
  | deviceNotRead (fault : SystemFault)
  deriving DecidableEq

namespace LogRecord

/-- The level of a record. -/
def level : LogRecord → LogLevel
  | tableResizing _ _ | tableAtMaximum _ => .info
  | noSystemEntropy => .warn
  | _ => .debug

/-- The text of a record. -/
def text : LogRecord → String
  | tableInitialized key yield buckets =>
    "hash table initialized: " ++ key.name ++ " -> " ++ yield.name ++ " with " ++
      Nat.repr buckets ++ " buckets"
  | tableResizing current requested =>
    "resizing hash table (" ++ Nat.repr current ++ " -> " ++ Nat.repr requested ++ " buckets)"
  | tableAtMaximum buckets =>
    "hash table at maximum size (" ++ Nat.repr buckets ++ " buckets); not growing"
  | tableDestroyed buckets => "hash table destroyed (" ++ Nat.repr buckets ++ " buckets)"
  | zobristBuilt length => "zobrist table built: 256 x " ++ Nat.repr length
  | secretInitialized => "keyed digest secret initialized"
  | noSystemEntropy =>
    "no OS entropy available; keyed digest secret falls back to time/pid/uid"
  | deviceNotOpened fault => "cannot open /dev/random: " ++ fault.text
  | deviceNotRead fault => "non-blocking read of /dev/random failed: " ++ fault.text

end LogRecord

end ChainedMultimap
