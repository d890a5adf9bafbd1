namespace CilGraph

/-!
# Operations

An operation says what a node of a lowered body does.  Every operation has a
fixed number, its tag, which is what an image stores, and a name for display.
The tags leave gaps between families of operations, so not every number is a
tag.
-/

/-- What a node does. -/
inductive Operation where
  | nop
  | duplicate
  | pop
  | throw
  | rethrow
  | loadArgument
  | loadArgumentAddress
  | storeArgument
  | loadLocal
  | loadLocalAddress
  | storeLocal
  | loadNull
  | loadConstant
  | loadString
  | loadToken
  | loadField
  | loadFieldAddress
  | storeField
  | loadStaticField
  | loadStaticFieldAddress
  | storeStaticField
  | loadElement
  | loadElementAddress
  | storeElement
  | loadLength
  | loadIndirect
  | storeIndirect
  | loadObject
  | storeObject
  | initObject
  | sizeOf
  | localAlloc
  | copyBlock
  | initBlock
  | add
  | addCheckOverflow
  | uAddCheckOverflow
  | subtract
  | subtractCheckOverflow
  | uSubtractCheckOverflow
  | multiply
  | multiplyCheckOverflow
  | uMultiplyCheckOverflow
  | divide
  | uDivide
  | remainder
  | uRemainder
  | and
  | or
  | xor
  | shiftLeft
  | shiftRight
  | uShiftRight
  | negate
  | not
  | compareEqual
  | compareGreater
  | uCompareGreater
  | compareLess
  | uCompareLess
  | convert
  | convertCheckOverflow
  | convertCheckOverflowUn
  | branch
  | branchTrue
  | branchFalse
  | branchEqual
  | uBranchNotEqual
  | branchGreaterOrEqual
  | uBranchGreaterOrEqual
  | branchGreater
  | uBranchGreater
  | branchLessOrEqual
  | uBranchLessOrEqual
  | branchLess
  | uBranchLess
  | switch
  | leave
  | endFinally
  | endFilter
  | ret
  | jump
  | call
  | callVirtual
  | callVirtualConstrained
  | newObject
  | newArray
  | loadFunction
  | isInstance
  | castClass
  | box
  | unboxAny
deriving DecidableEq, Repr

namespace Operation

/-- The number that an image stores for an operation. -/
def tag : Operation -> UInt32
  | nop => 0
  | duplicate => 1
  | pop => 2
  | throw => 3
  | rethrow => 4
  | loadArgument => 10
  | loadArgumentAddress => 11
  | storeArgument => 12
  | loadLocal => 13
  | loadLocalAddress => 14
  | storeLocal => 15
  | loadNull => 16
  | loadConstant => 17
  | loadString => 18
  | loadToken => 19
  | loadField => 20
  | loadFieldAddress => 21
  | storeField => 22
  | loadStaticField => 23
  | loadStaticFieldAddress => 24
  | storeStaticField => 25
  | loadElement => 30
  | loadElementAddress => 31
  | storeElement => 32
  | loadLength => 33
  | loadIndirect => 34
  | storeIndirect => 35
  | loadObject => 36
  | storeObject => 37
  | initObject => 38
  | sizeOf => 39
  | localAlloc => 40
  | copyBlock => 41
  | initBlock => 42
  | add => 50
  | addCheckOverflow => 51
  | uAddCheckOverflow => 52
  | subtract => 53
  | subtractCheckOverflow => 54
  | uSubtractCheckOverflow => 55
  | multiply => 56
  | multiplyCheckOverflow => 57
  | uMultiplyCheckOverflow => 58
  | divide => 59
  | uDivide => 60
  | remainder => 61
  | uRemainder => 62
  | and => 63
  | or => 64
  | xor => 65
  | shiftLeft => 66
  | shiftRight => 67
  | uShiftRight => 68
  | negate => 69
  | not => 70
  | compareEqual => 80
  | compareGreater => 81
  | uCompareGreater => 82
  | compareLess => 83
  | uCompareLess => 84
  | convert => 90
  | convertCheckOverflow => 91
  | convertCheckOverflowUn => 92
  | branch => 100
  | branchTrue => 101
  | branchFalse => 102
  | branchEqual => 103
  | uBranchNotEqual => 104
  | branchGreaterOrEqual => 105
  | uBranchGreaterOrEqual => 106
  | branchGreater => 107
  | uBranchGreater => 108
  | branchLessOrEqual => 109
  | uBranchLessOrEqual => 110
  | branchLess => 111
  | uBranchLess => 112
  | switch => 113
  | leave => 114
  | endFinally => 115
  | endFilter => 116
  | ret => 117
  | jump => 118
  | call => 120
  | callVirtual => 121
  | callVirtualConstrained => 122
  | newObject => 123
  | newArray => 124
  | loadFunction => 125
  | isInstance => 130
  | castClass => 131
  | box => 132
  | unboxAny => 133

/-- The name of an operation. -/
def name : Operation -> String
  | nop => "Nop"
  | duplicate => "Duplicate"
  | pop => "Pop"
  | throw => "Throw"
  | rethrow => "Rethrow"
  | loadArgument => "LoadArgument"
  | loadArgumentAddress => "LoadArgumentAddress"
  | storeArgument => "StoreArgument"
  | loadLocal => "LoadLocal"
  | loadLocalAddress => "LoadLocalAddress"
  | storeLocal => "StoreLocal"
  | loadNull => "LoadNull"
  | loadConstant => "LoadConstant"
  | loadString => "LoadString"
  | loadToken => "LoadToken"
  | loadField => "LoadField"
  | loadFieldAddress => "LoadFieldAddress"
  | storeField => "StoreField"
  | loadStaticField => "LoadStaticField"
  | loadStaticFieldAddress => "LoadStaticFieldAddress"
  | storeStaticField => "StoreStaticField"
  | loadElement => "LoadElement"
  | loadElementAddress => "LoadElementAddress"
  | storeElement => "StoreElement"
  | loadLength => "LoadLength"
  | loadIndirect => "LoadIndirect"
  | storeIndirect => "StoreIndirect"
  | loadObject => "LoadObject"
  | storeObject => "StoreObject"
  | initObject => "InitObject"
  | sizeOf => "SizeOf"
  | localAlloc => "LocalAlloc"
  | copyBlock => "CopyBlock"
  | initBlock => "InitBlock"
  | add => "Add"
  | addCheckOverflow => "AddCheckOverflow"
  | uAddCheckOverflow => "UAddCheckOverflow"
  | subtract => "Subtract"
  | subtractCheckOverflow => "SubtractCheckOverflow"
  | uSubtractCheckOverflow => "USubtractCheckOverflow"
  | multiply => "Multiply"
  | multiplyCheckOverflow => "MultiplyCheckOverflow"
  | uMultiplyCheckOverflow => "UMultiplyCheckOverflow"
  | divide => "Divide"
  | uDivide => "UDivide"
  | remainder => "Remainder"
  | uRemainder => "URemainder"
  | and => "And"
  | or => "Or"
  | xor => "Xor"
  | shiftLeft => "ShiftLeft"
  | shiftRight => "ShiftRight"
  | uShiftRight => "UShiftRight"
  | negate => "Negate"
  | not => "Not"
  | compareEqual => "CompareEqual"
  | compareGreater => "CompareGreater"
  | uCompareGreater => "UCompareGreater"
  | compareLess => "CompareLess"
  | uCompareLess => "UCompareLess"
  | convert => "Convert"
  | convertCheckOverflow => "ConvertCheckOverflow"
  | convertCheckOverflowUn => "ConvertCheckOverflowUn"
  | branch => "Branch"
  | branchTrue => "BranchTrue"
  | branchFalse => "BranchFalse"
  | branchEqual => "BranchEqual"
  | uBranchNotEqual => "UBranchNotEqual"
  | branchGreaterOrEqual => "BranchGreaterOrEqual"
  | uBranchGreaterOrEqual => "UBranchGreaterOrEqual"
  | branchGreater => "BranchGreater"
  | uBranchGreater => "UBranchGreater"
  | branchLessOrEqual => "BranchLessOrEqual"
  | uBranchLessOrEqual => "UBranchLessOrEqual"
  | branchLess => "BranchLess"
  | uBranchLess => "UBranchLess"
  | switch => "Switch"
  | leave => "Leave"
  | endFinally => "EndFinally"
  | endFilter => "EndFilter"
  | ret => "Return"
  | jump => "Jump"
  | call => "Call"
  | callVirtual => "CallVirtual"
  | callVirtualConstrained => "CallVirtualConstrained"
  | newObject => "NewObject"
  | newArray => "NewArray"
  | loadFunction => "LoadFunction"
  | isInstance => "IsInstance"
  | castClass => "CastClass"
  | box => "Box"
  | unboxAny => "UnboxAny"

/-- Every operation, in the order of the tags. -/
def all : List Operation := [
  .nop, .duplicate, .pop, .throw, .rethrow, .loadArgument, .loadArgumentAddress, .storeArgument,
  .loadLocal, .loadLocalAddress, .storeLocal, .loadNull, .loadConstant, .loadString, .loadToken,
  .loadField, .loadFieldAddress, .storeField, .loadStaticField, .loadStaticFieldAddress,
  .storeStaticField, .loadElement, .loadElementAddress, .storeElement, .loadLength,
  .loadIndirect, .storeIndirect, .loadObject, .storeObject, .initObject, .sizeOf, .localAlloc,
  .copyBlock, .initBlock, .add, .addCheckOverflow, .uAddCheckOverflow, .subtract,
  .subtractCheckOverflow, .uSubtractCheckOverflow, .multiply, .multiplyCheckOverflow,
  .uMultiplyCheckOverflow, .divide, .uDivide, .remainder, .uRemainder, .and, .or, .xor,
  .shiftLeft, .shiftRight, .uShiftRight, .negate, .not, .compareEqual, .compareGreater,
  .uCompareGreater, .compareLess, .uCompareLess, .convert, .convertCheckOverflow,
  .convertCheckOverflowUn, .branch, .branchTrue, .branchFalse, .branchEqual, .uBranchNotEqual,
  .branchGreaterOrEqual, .uBranchGreaterOrEqual, .branchGreater, .uBranchGreater,
  .branchLessOrEqual, .uBranchLessOrEqual, .branchLess, .uBranchLess, .switch, .leave,
  .endFinally, .endFilter, .ret, .jump, .call, .callVirtual, .callVirtualConstrained, .newObject,
  .newArray, .loadFunction, .isInstance, .castClass, .box, .unboxAny]

/-- The operation with a given tag. -/
def ofTag? (tag : UInt32) : Option Operation :=
  all.find? (fun operation => operation.tag == tag)

theorem ofTag?_tag (operation : Operation) : ofTag? operation.tag = some operation := by
  cases operation <;> rfl

/-- Whether an operation has one branch target as its only constant. -/
def isBranch (operation : Operation) : Bool :=
  (100 ≤ operation.tag && operation.tag ≤ 112) || operation == .leave

end Operation
end CilGraph
