/-!
Refusals by the operating system.
-/

namespace GoTemplate

/-- Why the operating system refuses a request: its words and its number for the reason. -/
structure SystemFault where
  reason : String
  number : Nat
  deriving DecidableEq

namespace SystemFault

/-- There is nothing of that name. -/
def notFound : SystemFault := ⟨"No such file or directory", 2⟩

/-- An argument of a program is too long. -/
def argumentTooLong : SystemFault := ⟨"Argument list too long", 7⟩

/-- The request is not allowed; among others, to run what is no program. -/
def permissionDenied : SystemFault := ⟨"Permission denied", 13⟩

/-- A file stands where a directory is asked for. -/
def notDirectory : SystemFault := ⟨"Not a directory", 20⟩

/-- A directory stands where a file is asked for. -/
def isDirectory : SystemFault := ⟨"Is a directory", 21⟩

/-- The request holds a value that no request may hold. -/
def invalidArgument : SystemFault := ⟨"Invalid argument", 22⟩

/-- A name, or a path as a whole, is too long. -/
def nameTooLong : SystemFault := ⟨"File name too long", 36⟩

/-- The wording of a refusal. -/
def message (fault : SystemFault) : String := s!"{fault.reason} (os error {fault.number})"

end SystemFault

end GoTemplate
