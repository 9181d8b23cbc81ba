/-!
# Faults of the operating system

* `OsFault` : why a file or a stream was refused.
* `OsFault.message` : the operating system's words for it. `OsFault.ofNumber` : the fault with a number.
-/

namespace TransitLink.Probe

set_option autoImplicit false

inductive OsFault where
  | notFound
  | notDirectory
  | isDirectory
  | alreadyExists
  | notEmpty
  | busy
  | invalidArgument
  | nameTooLong
  | notUtf8
  | nulInName
  /-- Another fault, in the operating system's words. -/
  | other (words : String)
deriving DecidableEq

namespace OsFault

def message : OsFault → String
  | notFound => "No such file or directory (os error 2)"
  | notDirectory => "Not a directory (os error 20)"
  | isDirectory => "Is a directory (os error 21)"
  | alreadyExists => "File exists (os error 17)"
  | notEmpty => "Directory not empty (os error 39)"
  | busy => "Device or resource busy (os error 16)"
  | invalidArgument => "Invalid argument (os error 22)"
  | nameTooLong => "File name too long (os error 36)"
  | notUtf8 => "stream did not contain valid UTF-8"
  | nulInName => "file name contained an unexpected NUL byte"
  | other words => words

/-- The words for further numbers. -/
def wordsOf (n : Nat) : String :=
  match n with
  | 1 => "Operation not permitted"
  | 5 => "Input/output error"
  | 13 => "Permission denied"
  | 24 => "Too many open files"
  | 26 => "Text file busy"
  | 28 => "No space left on device"
  | 30 => "Read-only file system"
  | 32 => "Broken pipe"
  | 40 => "Too many levels of symbolic links"
  | 99 => "Cannot assign requested address"
  | 101 => "Network is unreachable"
  | 103 => "Software caused connection abort"
  | 104 => "Connection reset by peer"
  | 110 => "Connection timed out"
  | 111 => "Connection refused"
  | 113 => "No route to host"
  | n => "Unknown error " ++ toString n

def ofNumber (n : Nat) : OsFault :=
  match n with
  | 2 => notFound
  | 16 => busy
  | 17 => alreadyExists
  | 20 => notDirectory
  | 21 => isDirectory
  | 22 => invalidArgument
  | 36 => nameTooLong
  | 39 => notEmpty
  | n => other (wordsOf n ++ " (os error " ++ toString n ++ ")")

end OsFault
end TransitLink.Probe
