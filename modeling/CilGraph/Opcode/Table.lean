import CilGraph.Opcode

namespace CilGraph
namespace Opcode

/-!
# The instruction table

Every instruction of the common intermediate language with its encoding, its
mnemonic, the kind of its operand and its effect on the operand stack.  An
instruction without an effect can be decoded and stepped over, but a body that
contains it is not lowered.
-/

/-- The instructions that are encoded in one byte. -/
def oneByte : List Opcode := [
  ⟨0x00, "nop", .none, some (.plain .nop 0 false [])⟩,
  ⟨0x01, "break", .none, none⟩,
  ⟨0x02, "ldarg.0", .none, some (.plain .loadArgument 0 true [0])⟩,
  ⟨0x03, "ldarg.1", .none, some (.plain .loadArgument 0 true [1])⟩,
  ⟨0x04, "ldarg.2", .none, some (.plain .loadArgument 0 true [2])⟩,
  ⟨0x05, "ldarg.3", .none, some (.plain .loadArgument 0 true [3])⟩,
  ⟨0x06, "ldloc.0", .none, some (.plain .loadLocal 0 true [0])⟩,
  ⟨0x07, "ldloc.1", .none, some (.plain .loadLocal 0 true [1])⟩,
  ⟨0x08, "ldloc.2", .none, some (.plain .loadLocal 0 true [2])⟩,
  ⟨0x09, "ldloc.3", .none, some (.plain .loadLocal 0 true [3])⟩,
  ⟨0x0A, "stloc.0", .none, some (.plain .storeLocal 1 false [0])⟩,
  ⟨0x0B, "stloc.1", .none, some (.plain .storeLocal 1 false [1])⟩,
  ⟨0x0C, "stloc.2", .none, some (.plain .storeLocal 1 false [2])⟩,
  ⟨0x0D, "stloc.3", .none, some (.plain .storeLocal 1 false [3])⟩,
  ⟨0x0E, "ldarg.s", .shortIndex, some (.indexed .loadArgument 0 true)⟩,
  ⟨0x0F, "ldarga.s", .shortIndex, some (.indexed .loadArgumentAddress 0 true)⟩,
  ⟨0x10, "starg.s", .shortIndex, some (.indexed .storeArgument 1 false)⟩,
  ⟨0x11, "ldloc.s", .shortIndex, some (.indexed .loadLocal 0 true)⟩,
  ⟨0x12, "ldloca.s", .shortIndex, some (.indexed .loadLocalAddress 0 true)⟩,
  ⟨0x13, "stloc.s", .shortIndex, some (.indexed .storeLocal 1 false)⟩,
  ⟨0x14, "ldnull", .none, some (.plain .loadNull 0 true [])⟩,
  ⟨0x15, "ldc.i4.m1", .none, some (.literal (-1))⟩,
  ⟨0x16, "ldc.i4.0", .none, some (.literal 0)⟩,
  ⟨0x17, "ldc.i4.1", .none, some (.literal 1)⟩,
  ⟨0x18, "ldc.i4.2", .none, some (.literal 2)⟩,
  ⟨0x19, "ldc.i4.3", .none, some (.literal 3)⟩,
  ⟨0x1A, "ldc.i4.4", .none, some (.literal 4)⟩,
  ⟨0x1B, "ldc.i4.5", .none, some (.literal 5)⟩,
  ⟨0x1C, "ldc.i4.6", .none, some (.literal 6)⟩,
  ⟨0x1D, "ldc.i4.7", .none, some (.literal 7)⟩,
  ⟨0x1E, "ldc.i4.8", .none, some (.literal 8)⟩,
  ⟨0x1F, "ldc.i4.s", .shortInteger, some (.integerConstant .i4)⟩,
  ⟨0x20, "ldc.i4", .integer, some (.integerConstant .i4)⟩,
  ⟨0x21, "ldc.i8", .longInteger, some (.integerConstant .i8)⟩,
  ⟨0x22, "ldc.r4", .shortFloat, some (.floatConstant .r4)⟩,
  ⟨0x23, "ldc.r8", .float, some (.floatConstant .r8)⟩,
  ⟨0x25, "dup", .none, some .duplicate⟩,
  ⟨0x26, "pop", .none, some (.plain .pop 1 false [])⟩,
  ⟨0x27, "jmp", .method, some (.reference .jump false)⟩,
  ⟨0x28, "call", .method, some .call⟩,
  ⟨0x29, "calli", .signature, none⟩,
  ⟨0x2A, "ret", .none, some .ret⟩,
  ⟨0x2B, "br.s", .shortBranch, some (.branch .branch 0)⟩,
  ⟨0x2C, "brfalse.s", .shortBranch, some (.branch .branchFalse 1)⟩,
  ⟨0x2D, "brtrue.s", .shortBranch, some (.branch .branchTrue 1)⟩,
  ⟨0x2E, "beq.s", .shortBranch, some (.branch .branchEqual 2)⟩,
  ⟨0x2F, "bge.s", .shortBranch, some (.branch .branchGreaterOrEqual 2)⟩,
  ⟨0x30, "bgt.s", .shortBranch, some (.branch .branchGreater 2)⟩,
  ⟨0x31, "ble.s", .shortBranch, some (.branch .branchLessOrEqual 2)⟩,
  ⟨0x32, "blt.s", .shortBranch, some (.branch .branchLess 2)⟩,
  ⟨0x33, "bne.un.s", .shortBranch, some (.branch .uBranchNotEqual 2)⟩,
  ⟨0x34, "bge.un.s", .shortBranch, some (.branch .uBranchGreaterOrEqual 2)⟩,
  ⟨0x35, "bgt.un.s", .shortBranch, some (.branch .uBranchGreater 2)⟩,
  ⟨0x36, "ble.un.s", .shortBranch, some (.branch .uBranchLessOrEqual 2)⟩,
  ⟨0x37, "blt.un.s", .shortBranch, some (.branch .uBranchLess 2)⟩,
  ⟨0x38, "br", .branch, some (.branch .branch 0)⟩,
  ⟨0x39, "brfalse", .branch, some (.branch .branchFalse 1)⟩,
  ⟨0x3A, "brtrue", .branch, some (.branch .branchTrue 1)⟩,
  ⟨0x3B, "beq", .branch, some (.branch .branchEqual 2)⟩,
  ⟨0x3C, "bge", .branch, some (.branch .branchGreaterOrEqual 2)⟩,
  ⟨0x3D, "bgt", .branch, some (.branch .branchGreater 2)⟩,
  ⟨0x3E, "ble", .branch, some (.branch .branchLessOrEqual 2)⟩,
  ⟨0x3F, "blt", .branch, some (.branch .branchLess 2)⟩,
  ⟨0x40, "bne.un", .branch, some (.branch .uBranchNotEqual 2)⟩,
  ⟨0x41, "bge.un", .branch, some (.branch .uBranchGreaterOrEqual 2)⟩,
  ⟨0x42, "bgt.un", .branch, some (.branch .uBranchGreater 2)⟩,
  ⟨0x43, "ble.un", .branch, some (.branch .uBranchLessOrEqual 2)⟩,
  ⟨0x44, "blt.un", .branch, some (.branch .uBranchLess 2)⟩,
  ⟨0x45, "switch", .branchTable, some .branchTable⟩,
  ⟨0x46, "ldind.i1", .none, some (.sized .loadIndirect 1 true .i1)⟩,
  ⟨0x47, "ldind.u1", .none, some (.sized .loadIndirect 1 true .u1)⟩,
  ⟨0x48, "ldind.i2", .none, some (.sized .loadIndirect 1 true .i2)⟩,
  ⟨0x49, "ldind.u2", .none, some (.sized .loadIndirect 1 true .u2)⟩,
  ⟨0x4A, "ldind.i4", .none, some (.sized .loadIndirect 1 true .i4)⟩,
  ⟨0x4B, "ldind.u4", .none, some (.sized .loadIndirect 1 true .u4)⟩,
  ⟨0x4C, "ldind.i8", .none, some (.sized .loadIndirect 1 true .i8)⟩,
  ⟨0x4D, "ldind.i", .none, some (.sized .loadIndirect 1 true .i)⟩,
  ⟨0x4E, "ldind.r4", .none, some (.sized .loadIndirect 1 true .r4)⟩,
  ⟨0x4F, "ldind.r8", .none, some (.sized .loadIndirect 1 true .r8)⟩,
  ⟨0x50, "ldind.ref", .none, some (.sized .loadIndirect 1 true .object)⟩,
  ⟨0x51, "stind.ref", .none, some (.sized .storeIndirect 2 false .object)⟩,
  ⟨0x52, "stind.i1", .none, some (.sized .storeIndirect 2 false .i1)⟩,
  ⟨0x53, "stind.i2", .none, some (.sized .storeIndirect 2 false .i2)⟩,
  ⟨0x54, "stind.i4", .none, some (.sized .storeIndirect 2 false .i4)⟩,
  ⟨0x55, "stind.i8", .none, some (.sized .storeIndirect 2 false .i8)⟩,
  ⟨0x56, "stind.r4", .none, some (.sized .storeIndirect 2 false .r4)⟩,
  ⟨0x57, "stind.r8", .none, some (.sized .storeIndirect 2 false .r8)⟩,
  ⟨0x58, "add", .none, some (.plain .add 2 true [])⟩,
  ⟨0x59, "sub", .none, some (.plain .subtract 2 true [])⟩,
  ⟨0x5A, "mul", .none, some (.plain .multiply 2 true [])⟩,
  ⟨0x5B, "div", .none, some (.plain .divide 2 true [])⟩,
  ⟨0x5C, "div.un", .none, some (.plain .uDivide 2 true [])⟩,
  ⟨0x5D, "rem", .none, some (.plain .remainder 2 true [])⟩,
  ⟨0x5E, "rem.un", .none, some (.plain .uRemainder 2 true [])⟩,
  ⟨0x5F, "and", .none, some (.plain .and 2 true [])⟩,
  ⟨0x60, "or", .none, some (.plain .or 2 true [])⟩,
  ⟨0x61, "xor", .none, some (.plain .xor 2 true [])⟩,
  ⟨0x62, "shl", .none, some (.plain .shiftLeft 2 true [])⟩,
  ⟨0x63, "shr", .none, some (.plain .shiftRight 2 true [])⟩,
  ⟨0x64, "shr.un", .none, some (.plain .uShiftRight 2 true [])⟩,
  ⟨0x65, "neg", .none, some (.plain .negate 1 true [])⟩,
  ⟨0x66, "not", .none, some (.plain .not 1 true [])⟩,
  ⟨0x67, "conv.i1", .none, some (.sized .convert 1 true .i1)⟩,
  ⟨0x68, "conv.i2", .none, some (.sized .convert 1 true .i2)⟩,
  ⟨0x69, "conv.i4", .none, some (.sized .convert 1 true .i4)⟩,
  ⟨0x6A, "conv.i8", .none, some (.sized .convert 1 true .i8)⟩,
  ⟨0x6B, "conv.r4", .none, some (.sized .convert 1 true .r4)⟩,
  ⟨0x6C, "conv.r8", .none, some (.sized .convert 1 true .r8)⟩,
  ⟨0x6D, "conv.u4", .none, some (.sized .convert 1 true .u4)⟩,
  ⟨0x6E, "conv.u8", .none, some (.sized .convert 1 true .u8)⟩,
  ⟨0x6F, "callvirt", .method, some .callVirtual⟩,
  ⟨0x70, "cpobj", .type, none⟩,
  ⟨0x71, "ldobj", .type, some (.typed .loadObject 1 true)⟩,
  ⟨0x72, "ldstr", .string, some .loadString⟩,
  ⟨0x73, "newobj", .method, some .newObject⟩,
  ⟨0x74, "castclass", .type, some (.typed .castClass 1 true)⟩,
  ⟨0x75, "isinst", .type, some (.typed .isInstance 1 true)⟩,
  ⟨0x76, "conv.r.un", .none, some (.sized .convert 1 true .rUn)⟩,
  ⟨0x79, "unbox", .type, none⟩,
  ⟨0x7A, "throw", .none, some (.plain .throw 1 false [])⟩,
  ⟨0x7B, "ldfld", .field, some (.field .loadField 1 true)⟩,
  ⟨0x7C, "ldflda", .field, some (.field .loadFieldAddress 1 true)⟩,
  ⟨0x7D, "stfld", .field, some (.field .storeField 2 false)⟩,
  ⟨0x7E, "ldsfld", .field, some (.field .loadStaticField 0 true)⟩,
  ⟨0x7F, "ldsflda", .field, some (.field .loadStaticFieldAddress 0 true)⟩,
  ⟨0x80, "stsfld", .field, some (.field .storeStaticField 1 false)⟩,
  ⟨0x81, "stobj", .type, some (.typed .storeObject 2 false)⟩,
  ⟨0x82, "conv.ovf.i1.un", .none, some (.sized .convertCheckOverflowUn 1 true .i1)⟩,
  ⟨0x83, "conv.ovf.i2.un", .none, some (.sized .convertCheckOverflowUn 1 true .i2)⟩,
  ⟨0x84, "conv.ovf.i4.un", .none, some (.sized .convertCheckOverflowUn 1 true .i4)⟩,
  ⟨0x85, "conv.ovf.i8.un", .none, some (.sized .convertCheckOverflowUn 1 true .i8)⟩,
  ⟨0x86, "conv.ovf.u1.un", .none, some (.sized .convertCheckOverflowUn 1 true .u1)⟩,
  ⟨0x87, "conv.ovf.u2.un", .none, some (.sized .convertCheckOverflowUn 1 true .u2)⟩,
  ⟨0x88, "conv.ovf.u4.un", .none, some (.sized .convertCheckOverflowUn 1 true .u4)⟩,
  ⟨0x89, "conv.ovf.u8.un", .none, some (.sized .convertCheckOverflowUn 1 true .u8)⟩,
  ⟨0x8A, "conv.ovf.i.un", .none, some (.sized .convertCheckOverflowUn 1 true .i)⟩,
  ⟨0x8B, "conv.ovf.u.un", .none, some (.sized .convertCheckOverflowUn 1 true .u)⟩,
  ⟨0x8C, "box", .type, some (.typed .box 1 true)⟩,
  ⟨0x8D, "newarr", .type, some .newArray⟩,
  ⟨0x8E, "ldlen", .none, some (.plain .loadLength 1 true [])⟩,
  ⟨0x8F, "ldelema", .type, some (.element .loadElementAddress 2 true)⟩,
  ⟨0x90, "ldelem.i1", .none, some (.sized .loadElement 2 true .i1)⟩,
  ⟨0x91, "ldelem.u1", .none, some (.sized .loadElement 2 true .u1)⟩,
  ⟨0x92, "ldelem.i2", .none, some (.sized .loadElement 2 true .i2)⟩,
  ⟨0x93, "ldelem.u2", .none, some (.sized .loadElement 2 true .u2)⟩,
  ⟨0x94, "ldelem.i4", .none, some (.sized .loadElement 2 true .i4)⟩,
  ⟨0x95, "ldelem.u4", .none, some (.sized .loadElement 2 true .u4)⟩,
  ⟨0x96, "ldelem.i8", .none, some (.sized .loadElement 2 true .i8)⟩,
  ⟨0x97, "ldelem.i", .none, some (.sized .loadElement 2 true .i)⟩,
  ⟨0x98, "ldelem.r4", .none, some (.sized .loadElement 2 true .r4)⟩,
  ⟨0x99, "ldelem.r8", .none, some (.sized .loadElement 2 true .r8)⟩,
  ⟨0x9A, "ldelem.ref", .none, some (.sized .loadElement 2 true .object)⟩,
  ⟨0x9B, "stelem.i", .none, some (.sized .storeElement 3 false .i)⟩,
  ⟨0x9C, "stelem.i1", .none, some (.sized .storeElement 3 false .i1)⟩,
  ⟨0x9D, "stelem.i2", .none, some (.sized .storeElement 3 false .i2)⟩,
  ⟨0x9E, "stelem.i4", .none, some (.sized .storeElement 3 false .i4)⟩,
  ⟨0x9F, "stelem.i8", .none, some (.sized .storeElement 3 false .i8)⟩,
  ⟨0xA0, "stelem.r4", .none, some (.sized .storeElement 3 false .r4)⟩,
  ⟨0xA1, "stelem.r8", .none, some (.sized .storeElement 3 false .r8)⟩,
  ⟨0xA2, "stelem.ref", .none, some (.sized .storeElement 3 false .object)⟩,
  ⟨0xA3, "ldelem", .type, some (.element .loadElement 2 true)⟩,
  ⟨0xA4, "stelem", .type, some (.element .storeElement 3 false)⟩,
  ⟨0xA5, "unbox.any", .type, some (.typed .unboxAny 1 true)⟩,
  ⟨0xB3, "conv.ovf.i1", .none, some (.sized .convertCheckOverflow 1 true .i1)⟩,
  ⟨0xB4, "conv.ovf.u1", .none, some (.sized .convertCheckOverflow 1 true .u1)⟩,
  ⟨0xB5, "conv.ovf.i2", .none, some (.sized .convertCheckOverflow 1 true .i2)⟩,
  ⟨0xB6, "conv.ovf.u2", .none, some (.sized .convertCheckOverflow 1 true .u2)⟩,
  ⟨0xB7, "conv.ovf.i4", .none, some (.sized .convertCheckOverflow 1 true .i4)⟩,
  ⟨0xB8, "conv.ovf.u4", .none, some (.sized .convertCheckOverflow 1 true .u4)⟩,
  ⟨0xB9, "conv.ovf.i8", .none, some (.sized .convertCheckOverflow 1 true .i8)⟩,
  ⟨0xBA, "conv.ovf.u8", .none, some (.sized .convertCheckOverflow 1 true .u8)⟩,
  ⟨0xC2, "refanyval", .type, none⟩,
  ⟨0xC3, "ckfinite", .none, none⟩,
  ⟨0xC6, "mkrefany", .type, none⟩,
  ⟨0xD0, "ldtoken", .token, some .loadToken⟩,
  ⟨0xD1, "conv.u2", .none, some (.sized .convert 1 true .u2)⟩,
  ⟨0xD2, "conv.u1", .none, some (.sized .convert 1 true .u1)⟩,
  ⟨0xD3, "conv.i", .none, some (.sized .convert 1 true .i)⟩,
  ⟨0xD4, "conv.ovf.i", .none, some (.sized .convertCheckOverflow 1 true .i)⟩,
  ⟨0xD5, "conv.ovf.u", .none, some (.sized .convertCheckOverflow 1 true .u)⟩,
  ⟨0xD6, "add.ovf", .none, some (.plain .addCheckOverflow 2 true [])⟩,
  ⟨0xD7, "add.ovf.un", .none, some (.plain .uAddCheckOverflow 2 true [])⟩,
  ⟨0xD8, "mul.ovf", .none, some (.plain .multiplyCheckOverflow 2 true [])⟩,
  ⟨0xD9, "mul.ovf.un", .none, some (.plain .uMultiplyCheckOverflow 2 true [])⟩,
  ⟨0xDA, "sub.ovf", .none, some (.plain .subtractCheckOverflow 2 true [])⟩,
  ⟨0xDB, "sub.ovf.un", .none, some (.plain .uSubtractCheckOverflow 2 true [])⟩,
  ⟨0xDC, "endfinally", .none, some .endFinally⟩,
  ⟨0xDD, "leave", .branch, some .leave⟩,
  ⟨0xDE, "leave.s", .shortBranch, some .leave⟩,
  ⟨0xDF, "stind.i", .none, some (.sized .storeIndirect 2 false .i)⟩,
  ⟨0xE0, "conv.u", .none, some (.sized .convert 1 true .u)⟩]

/-- The instructions that are encoded in two bytes. -/
def twoByte : List Opcode := [
  ⟨0xFE00, "arglist", .none, none⟩,
  ⟨0xFE01, "ceq", .none, some (.plain .compareEqual 2 true [])⟩,
  ⟨0xFE02, "cgt", .none, some (.plain .compareGreater 2 true [])⟩,
  ⟨0xFE03, "cgt.un", .none, some (.plain .uCompareGreater 2 true [])⟩,
  ⟨0xFE04, "clt", .none, some (.plain .compareLess 2 true [])⟩,
  ⟨0xFE05, "clt.un", .none, some (.plain .uCompareLess 2 true [])⟩,
  ⟨0xFE06, "ldftn", .method, some (.reference .loadFunction true)⟩,
  ⟨0xFE07, "ldvirtftn", .method, none⟩,
  ⟨0xFE09, "ldarg", .index, some (.indexed .loadArgument 0 true)⟩,
  ⟨0xFE0A, "ldarga", .index, some (.indexed .loadArgumentAddress 0 true)⟩,
  ⟨0xFE0B, "starg", .index, some (.indexed .storeArgument 1 false)⟩,
  ⟨0xFE0C, "ldloc", .index, some (.indexed .loadLocal 0 true)⟩,
  ⟨0xFE0D, "ldloca", .index, some (.indexed .loadLocalAddress 0 true)⟩,
  ⟨0xFE0E, "stloc", .index, some (.indexed .storeLocal 1 false)⟩,
  ⟨0xFE0F, "localloc", .none, some (.plain .localAlloc 1 true [])⟩,
  ⟨0xFE11, "endfilter", .none, some (.plain .endFilter 1 false [])⟩,
  ⟨0xFE12, "unaligned.", .shortInteger, none⟩,
  ⟨0xFE13, "volatile.", .none, none⟩,
  ⟨0xFE14, "tail.", .none, none⟩,
  ⟨0xFE15, "initobj", .type, some (.typed .initObject 1 false)⟩,
  ⟨0xFE16, "constrained.", .type, some .constrained⟩,
  ⟨0xFE17, "cpblk", .none, some (.plain .copyBlock 3 false [])⟩,
  ⟨0xFE18, "initblk", .none, some (.plain .initBlock 3 false [])⟩,
  ⟨0xFE19, "no.", .shortInteger, none⟩,
  ⟨0xFE1A, "rethrow", .none, some (.plain .rethrow 0 false [])⟩,
  ⟨0xFE1C, "sizeof", .type, some (.typed .sizeOf 0 true)⟩,
  ⟨0xFE1D, "refanytype", .none, none⟩,
  ⟨0xFE1E, "readonly.", .none, none⟩]

/-- All instructions, in the order of their encodings. -/
def table : List Opcode :=
  oneByte ++ twoByte

/-- The instruction with a given encoding. -/
def ofValue? (value : UInt16) : Option Opcode :=
  table.find? (fun opcode => opcode.value == value)

end Opcode
end CilGraph
