import PyGridGain.Datatypes.Struct

/-! Payloads that requests carry without a type code: maps and arrays of any objects, and the
properties of a cache. -/

namespace PyGridGain

open StreamM

section Payloads
variable [Python] [OtherCodecs]

/-- `Map`. -/
def mapClass : WireClass where
  fromPython
    | .dict kvs => do
      let length ← ofOption (lengthBytes kvs.length) .overflowError
      write length
      let kvs ← inferPairs PyGridGain.fromPython kvs
      pure (.dict kvs)
    | _ => raise .attributeError
  parse := parseArray 0 [(.length, .scalar .int)] (2 * ·) AnyDataObject.parse
  toPython client o := do
    let kvs ← pairsToPython (toPythonN client (o.mem.length + 1)) o
    .ok (.dict kvs)

/-- `AnyDataArray()`. -/
def anyDataArray : WireClass where
  fromPython v := do
    let length ← ofOption (lengthBytes v.contents.length) .overflowError
    write length
    let xs ← inferAll PyGridGain.fromPython v.contents
    pure (v.refill xs)
  parse := parseArray 0 [(.length, .scalar .int)] id AnyDataObject.parse
  toPython client o := do
    let xs ← elementsToPython (AnyDataObject.toPython client) o
    .ok (.list xs)

end Payloads

/-- A subclass of `PropBase`, with its `prop_code` and its `prop_data_class`. -/
def propBase (propCode : ℤ) (dataClass : WireClass) : WireClass where
  fromPython v := do
    write (Scalar.short.store propCode)
    dataClass.fromPython v
  parse := do
    let initPos ← tell
    let data ← dataClass.parse
    let c : Layout := .struct [(.field "prop_code".toList, .scalar .short), (.data, data)]
    seek (initPos + c.size)
    pure c
  toPython client o := do
    let data ← o.attr .data
    dataClass.toPython client data

end PyGridGain
