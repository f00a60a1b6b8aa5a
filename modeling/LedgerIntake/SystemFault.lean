/-!
# System faults

What the operating system says when it cannot do what it is asked for: a number, which has a fixed
wording.
-/

namespace LedgerIntake

/-- A fault that the system reports. -/
structure SystemFault where
  number : Nat
  wording : String
deriving DecidableEq

namespace SystemFault

/-- The text of a fault. -/
def text (fault : SystemFault) : String :=
  fault.wording ++ " (os error " ++ fault.number.repr ++ ")"

/-- No file has the name. -/
def noFile : SystemFault := ⟨2, "No such file or directory"⟩

/-- The user may not do it. -/
def permissionDenied : SystemFault := ⟨13, "Permission denied"⟩

/-- No link has the number. -/
def noDevice : SystemFault := ⟨19, "No such device"⟩

/-- What stands in front of a name is no directory. -/
def notDirectory : SystemFault := ⟨20, "Not a directory"⟩

/-- What has the name is no file but a directory. -/
def directory : SystemFault := ⟨21, "Is a directory"⟩

/-- The values that were given do not fit. -/
def invalidArgument : SystemFault := ⟨22, "Invalid argument"⟩

/-- No file can have a name or a path of that length. -/
def nameTooLong : SystemFault := ⟨36, "File name too long"⟩

/-- Another server listens at the address. -/
def addressInUse : SystemFault := ⟨98, "Address already in use"⟩

/-- The address is that of another machine. -/
def foreignAddress : SystemFault := ⟨99, "Cannot assign requested address"⟩

/-- No link leads to the address. -/
def networkUnreachable : SystemFault := ⟨101, "Network is unreachable"⟩

/-- No server listens at the address. -/
def connectionRefused : SystemFault := ⟨111, "Connection refused"⟩

/-- Faults by their numbers. -/
def known : List SystemFault :=
  [noFile, permissionDenied, noDevice, notDirectory, directory,
    invalidArgument, ⟨32, "Broken pipe"⟩,
    nameTooLong, addressInUse, foreignAddress, networkUnreachable,
      ⟨104, "Connection reset by peer"⟩,
    ⟨110, "Connection timed out"⟩, connectionRefused, ⟨113, "No route to host"⟩]

/-- The fault of a report: the number may be written as its negative, and a wording of the report
serves where the number is not known. -/
def ofReport (code : UInt32) (wording : String) : SystemFault :=
  let number := if code < 0x80000000 then code.toNat else (-code).toNat
  (known.find? fun fault => fault.number = number).getD ⟨number, wording⟩

end SystemFault

end LedgerIntake
