/-! `CSVShm`: how the process comes by its shared-memory segment. The answers of
the operating system are inputs. -/

namespace TeenpattiUserServer.Shm.SVShm

/-- What `shmget`, `shmctl` and `shmat` return in `force_open_and_attach`, call by call. -/
structure Answers where
  createExcl : Int
  errnoIsEexist : Bool
  openExisting : Int
  openAnySize : Int
  remove : Int
  createAgain : Int
  attachFails : Bool

/-- `open`: only the identifier `-1` is a failure. -/
def openSegment (internalId : Int) : Int := if internalId = -1 then -1 else 0

def attach (os : Answers) : Int := if os.attachFails then -1 else 0

/-- The result and the value left in `init`. -/
def forceOpenAndAttach (os : Answers) : Int × Int :=
  if openSegment os.createExcl = -1 then
    if !os.errnoIsEexist then (-1, 1)
    else if openSegment os.openExisting = -1 then
      if openSegment os.openAnySize = -1 then (-1, 1)
      else if os.remove = -1 then (-1, 1)
      else if openSegment os.createAgain = -1 then (-1, 1)
      else (attach os, 1)
    else (attach os, 0)
  else (attach os, 1)

end TeenpattiUserServer.Shm.SVShm
