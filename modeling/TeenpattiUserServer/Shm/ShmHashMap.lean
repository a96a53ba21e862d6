import TeenpattiUserServer.Shm.HashMap
import TeenpattiUserServer.Shm.SVShm

/-! `CShmHashMap`: the table as its users see it. -/

namespace TeenpattiUserServer.Shm

open Store

/-- `THashPara` -/
structure HashPara where
  nodeTotal : Nat
  bucketSize : Nat
  chunkTotal : Nat
  chunkSize : Nat

/-- The return value of a call, `*buf_len` after it and what it wrote to `buf`. -/
structure Reply where
  ret : Int
  bufLen : Int
  buf : List UInt8
  deriving DecidableEq

namespace ShmHashMap

open HashMap

variable {Key : Type}

/-- `init` is the value of the local variable that no statement initialises. -/
def init (os : SVShm.Answers) (init : Int) (para : HashPara) : Run Key Int := do
  let (ret, tmpInit) := SVShm.forceOpenAndAttach os
  if ret < 0 then
    pure (-1)
  else
    let init := if tmpInit ≠ 0 then tmpInit else init
    let ret ← openPool (init ≠ 0) para.nodeTotal para.bucketSize para.chunkTotal para.chunkSize
    if ret < 0 then pure (-1) else pure 0

section Keyed

variable [DecidableEq Key] (hash : Key → Nat)

/-- `Find(key)` -/
def contains (key : Key) : Run Key Bool := do
  pure ((← findNode hash key) ≠ none)

/-- `Find(key, buf, buf_len)` -/
def find (key : Key) (bufLen : Int) : Run Key Reply := do
  match ← findNode hash key with
  | some node =>
    let (ret, len, bytes) ← mergeNodeData node bufLen
    pure ⟨ret, len, bytes⟩
  | none => pure ⟨-1, bufLen, []⟩

def insert (key : Key) (data : List UInt8) : Run Key Int := do
  match ← insertNode hash key data with
  | none => pure (-1)
  | some _ => pure 0

def setValue (key : Key) (data : List UInt8) : Run Key Int := do
  match ← replaceNode hash key data with
  | none => pure (-1)
  | some _ => pure 0

def delete (key : Key) : Run Key Int := do
  match ← findNode hash key with
  | some node => deleteNode hash node
  | none => pure (-1)

end Keyed

/-- The cursor of a `vistor` after `begin` and `steps` calls of `next`. -/
def visit : Nat → Run Key Handler
  | 0 => Prog.read (·.addHead)
  | steps + 1 => do
    match ← visit steps with
    | none => pure none
    | some node => Prog.read (·.addNext node)

def getData (node : Nat) (dataLen : Int) : Run Key Reply := do
  let (ret, len, bytes) ← mergeNodeData node dataLen
  pure ⟨ret, len, bytes⟩

def erase (hash : Key → Nat) (node : Handler) : Run Key Int :=
  match node with
  | none => pure (-1)
  | some node => deleteNode hash node

def updateData (node : Handler) (data : List UInt8) : Run Key Int := do
  match node with
  | none => pure (-1)
  | some node =>
    match ← updateNode node data with
    | none => pure (-1)
    | some _ => pure 0

end ShmHashMap

end TeenpattiUserServer.Shm
