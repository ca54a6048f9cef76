import WasmText.Opcode.Basic

/-!
# Vector instructions

The first vector band of the opcode table, in ascending order of codes.
-/

namespace WasmText.Opcode

/-- Vector constants and vectors built from lanes. -/
def vectorConstants : List Opcode :=
  [⟨0x100, "i64x2.const", .vectorConst, .m128, .i64, .void, 0, 2⟩,
    ⟨0x101, "i32x4.const", .vectorConst, .m128, .i32, .void, 0, 4⟩,
    ⟨0x102, "i16x8.const", .vectorConst, .m128, .i32, .void, 0, 8⟩,
    ⟨0x103, "i8x16.const", .vectorConst, .m128, .i32, .void, 0, 16⟩,
    ⟨0x104, "b64x2.const", .vectorConst, .b2, .i64, .void, 0, 2⟩,
    ⟨0x105, "b32x4.const", .vectorConst, .b4, .i32, .void, 0, 4⟩,
    ⟨0x106, "b16x8.const", .vectorConst, .b8, .i32, .void, 0, 8⟩,
    ⟨0x107, "b8x16.const", .vectorConst, .b16, .i32, .void, 0, 16⟩,
    ⟨0x108, "f64x2.const", .vectorConst, .m128, .f64, .void, 0, 2⟩,
    ⟨0x109, "f32x4.const", .vectorConst, .m128, .f32, .void, 0, 4⟩,
    ⟨0x10a, "i64x2.build", .vectorBuild, .m128, .i64, .void, 0, 2⟩,
    ⟨0x10b, "i32x4.build", .vectorBuild, .m128, .i32, .void, 0, 4⟩,
    ⟨0x10c, "i16x8.build", .vectorBuild, .m128, .i32, .void, 0, 8⟩,
    ⟨0x10d, "i8x16.build", .vectorBuild, .m128, .i32, .void, 0, 16⟩,
    ⟨0x10e, "b64x2.build", .vectorBuild, .b2, .i64, .void, 0, 2⟩,
    ⟨0x10f, "b32x4.build", .vectorBuild, .b4, .i32, .void, 0, 4⟩,
    ⟨0x110, "b16x8.build", .vectorBuild, .b8, .i32, .void, 0, 8⟩,
    ⟨0x111, "b8x16.build", .vectorBuild, .b16, .i32, .void, 0, 16⟩,
    ⟨0x112, "f64x2.build", .vectorBuild, .m128, .f64, .void, 0, 2⟩,
    ⟨0x113, "f32x4.build", .vectorBuild, .m128, .f32, .void, 0, 4⟩]

/-- Boolean vectors. -/
def booleanVectorInstructions : List Opcode :=
  [⟨0x114, "b8x16.splat", .unary, .b16, .i32, .void, 0, 16⟩,
    ⟨0x115, "b8x16.extract", .binary, .i32, .b16, .i32, 0, 16⟩,
    ⟨0x116, "b8x16.and", .binary, .b16, .b16, .b16, 0, 16⟩,
    ⟨0x117, "b8x16.or", .binary, .b16, .b16, .b16, 0, 16⟩,
    ⟨0x118, "b8x16.xor", .binary, .b16, .b16, .b16, 0, 16⟩,
    ⟨0x119, "b8x16.not", .unary, .b16, .b16, .void, 0, 16⟩,
    ⟨0x11a, "b8x16.anytrue", .unary, .i32, .b16, .void, 0, 16⟩,
    ⟨0x11b, "b8x16.alltrue", .unary, .i32, .b16, .void, 0, 16⟩,
    ⟨0x11c, "b16x8.splat", .unary, .b8, .i32, .void, 0, 8⟩,
    ⟨0x11d, "b16x8.extract", .binary, .i32, .b8, .i32, 0, 8⟩,
    ⟨0x11e, "b16x8.and", .binary, .b8, .b8, .b8, 0, 8⟩,
    ⟨0x11f, "b16x8.or", .binary, .b8, .b8, .b8, 0, 8⟩,
    ⟨0x120, "b16x8.xor", .binary, .b8, .b8, .b8, 0, 8⟩,
    ⟨0x121, "b16x8.not", .unary, .b8, .b8, .void, 0, 8⟩,
    ⟨0x122, "b16x8.anytrue", .unary, .i32, .b8, .void, 0, 8⟩,
    ⟨0x123, "b16x8.alltrue", .unary, .i32, .b8, .void, 0, 8⟩,
    ⟨0x124, "b32x4.splat", .unary, .b4, .i32, .void, 0, 4⟩,
    ⟨0x125, "b32x4.extract", .binary, .i32, .b4, .i32, 0, 4⟩,
    ⟨0x126, "b32x4.and", .binary, .b4, .b4, .b4, 0, 4⟩,
    ⟨0x127, "b32x4.or", .binary, .b4, .b4, .b4, 0, 4⟩,
    ⟨0x128, "b32x4.xor", .binary, .b4, .b4, .b4, 0, 4⟩,
    ⟨0x129, "b32x4.not", .unary, .b4, .b4, .void, 0, 4⟩,
    ⟨0x12a, "b32x4.anytrue", .unary, .i32, .b4, .void, 0, 4⟩,
    ⟨0x12b, "b32x4.alltrue", .unary, .i32, .b4, .void, 0, 4⟩,
    ⟨0x12c, "b64x2.splat", .unary, .b2, .i32, .void, 0, 2⟩,
    ⟨0x12d, "b64x2.extract", .binary, .i32, .b2, .i32, 0, 2⟩,
    ⟨0x12e, "b64x2.and", .binary, .b2, .b2, .b2, 0, 2⟩,
    ⟨0x12f, "b64x2.or", .binary, .b2, .b2, .b2, 0, 2⟩,
    ⟨0x130, "b64x2.xor", .binary, .b2, .b2, .b2, 0, 2⟩,
    ⟨0x131, "b64x2.not", .unary, .b2, .b2, .void, 0, 2⟩,
    ⟨0x132, "b64x2.anytrue", .unary, .i32, .b2, .void, 0, 2⟩,
    ⟨0x133, "b64x2.alltrue", .unary, .i32, .b2, .void, 0, 2⟩]

/-- Vectors of sixteen 8-bit integers. -/
def byteVectorInstructions : List Opcode :=
  [⟨0x134, "i8x16.reinterpret_i16x8", .convert, .m128, .m128, .void, 0, 16⟩,
    ⟨0x135, "i8x16.reinterpret_i32x4", .convert, .m128, .m128, .void, 0, 16⟩,
    ⟨0x136, "i8x16.reinterpret_i64x2", .convert, .m128, .m128, .void, 0, 16⟩,
    ⟨0x137, "i8x16.reinterpret_f32x4", .convert, .m128, .m128, .void, 0, 16⟩,
    ⟨0x138, "i8x16.reinterpret_f64x2", .convert, .m128, .m128, .void, 0, 16⟩,
    ⟨0x139, "i8x16.splat", .unary, .m128, .i32, .void, 0, 16⟩,
    ⟨0x13a, "i8x16.extract_s", .binary, .i32, .m128, .i32, 0, 16⟩,
    ⟨0x13b, "i8x16.extract_u", .binary, .i32, .m128, .i32, 0, 16⟩,
    ⟨0x13c, "i8x16.add", .binary, .m128, .m128, .m128, 0, 16⟩,
    ⟨0x13d, "i8x16.sub", .binary, .m128, .m128, .m128, 0, 16⟩,
    ⟨0x13e, "i8x16.mul", .binary, .m128, .m128, .m128, 0, 16⟩,
    ⟨0x13f, "i8x16.neg", .unary, .m128, .m128, .void, 0, 16⟩,
    ⟨0x140, "i8x16.addsaturate_s", .binary, .m128, .m128, .m128, 0, 16⟩,
    ⟨0x141, "i8x16.addsaturate_u", .binary, .m128, .m128, .m128, 0, 16⟩,
    ⟨0x142, "i8x16.subsaturate_s", .binary, .m128, .m128, .m128, 0, 16⟩,
    ⟨0x143, "i8x16.subsaturate_u", .binary, .m128, .m128, .m128, 0, 16⟩,
    ⟨0x144, "i8x16.shl", .binary, .m128, .m128, .i32, 0, 16⟩,
    ⟨0x145, "i8x16.shr_s", .binary, .m128, .m128, .i32, 0, 16⟩,
    ⟨0x146, "i8x16.shr_u", .binary, .m128, .m128, .i32, 0, 16⟩,
    ⟨0x147, "i8x16.and", .binary, .m128, .m128, .m128, 0, 16⟩,
    ⟨0x148, "i8x16.or", .binary, .m128, .m128, .m128, 0, 16⟩,
    ⟨0x149, "i8x16.xor", .binary, .m128, .m128, .m128, 0, 16⟩,
    ⟨0x14a, "i8x16.not", .unary, .m128, .m128, .void, 0, 16⟩,
    ⟨0x14b, "i8x16.eq", .compare, .b16, .m128, .m128, 0, 16⟩,
    ⟨0x14c, "i8x16.ne", .compare, .b16, .m128, .m128, 0, 16⟩,
    ⟨0x14d, "i8x16.lt_s", .compare, .b16, .m128, .m128, 0, 16⟩,
    ⟨0x14e, "i8x16.lt_u", .compare, .b16, .m128, .m128, 0, 16⟩,
    ⟨0x14f, "i8x16.le_s", .compare, .b16, .m128, .m128, 0, 16⟩,
    ⟨0x150, "i8x16.le_u", .compare, .b16, .m128, .m128, 0, 16⟩,
    ⟨0x151, "i8x16.gt_s", .compare, .b16, .m128, .m128, 0, 16⟩,
    ⟨0x152, "i8x16.gt_u", .compare, .b16, .m128, .m128, 0, 16⟩,
    ⟨0x153, "i8x16.ge_s", .compare, .b16, .m128, .m128, 0, 16⟩,
    ⟨0x154, "i8x16.ge_u", .compare, .b16, .m128, .m128, 0, 16⟩,
    ⟨0x155, "i8x16.load", .load, .m128, .i32, .void, 16, 16⟩,
    ⟨0x156, "i8x16.store", .store, .void, .i32, .m128, 16, 16⟩]

/-- Vectors of eight 16-bit integers. -/
def shortVectorInstructions : List Opcode :=
  [⟨0x157, "i16x8.reinterpret_i8x16", .convert, .m128, .m128, .void, 0, 8⟩,
    ⟨0x158, "i16x8.reinterpret_i32x4", .convert, .m128, .m128, .void, 0, 8⟩,
    ⟨0x159, "i16x8.reinterpret_i64x2", .convert, .m128, .m128, .void, 0, 8⟩,
    ⟨0x15a, "i16x8.reinterpret_f32x4", .convert, .m128, .m128, .void, 0, 8⟩,
    ⟨0x15b, "i16x8.reinterpret_f64x2", .convert, .m128, .m128, .void, 0, 8⟩,
    ⟨0x15c, "i16x8.splat", .unary, .m128, .i32, .void, 0, 8⟩,
    ⟨0x15d, "i16x8.extract_s", .binary, .i32, .m128, .i32, 0, 8⟩,
    ⟨0x15e, "i16x8.extract_u", .binary, .i32, .m128, .i32, 0, 8⟩,
    ⟨0x15f, "i16x8.add", .binary, .m128, .m128, .m128, 0, 8⟩,
    ⟨0x160, "i16x8.sub", .binary, .m128, .m128, .m128, 0, 8⟩,
    ⟨0x161, "i16x8.mul", .binary, .m128, .m128, .m128, 0, 8⟩,
    ⟨0x162, "i16x8.neg", .unary, .m128, .m128, .void, 0, 8⟩,
    ⟨0x163, "i16x8.addsaturate_s", .binary, .m128, .m128, .m128, 0, 8⟩,
    ⟨0x164, "i16x8.addsaturate_u", .binary, .m128, .m128, .m128, 0, 8⟩,
    ⟨0x165, "i16x8.subsaturate_s", .binary, .m128, .m128, .m128, 0, 8⟩,
    ⟨0x166, "i16x8.subsaturate_u", .binary, .m128, .m128, .m128, 0, 8⟩,
    ⟨0x167, "i16x8.shl", .binary, .m128, .m128, .i32, 0, 8⟩,
    ⟨0x168, "i16x8.shr_s", .binary, .m128, .m128, .i32, 0, 8⟩,
    ⟨0x169, "i16x8.shr_u", .binary, .m128, .m128, .i32, 0, 8⟩,
    ⟨0x16a, "i16x8.and", .binary, .m128, .m128, .m128, 0, 8⟩,
    ⟨0x16b, "i16x8.or", .binary, .m128, .m128, .m128, 0, 8⟩,
    ⟨0x16c, "i16x8.xor", .binary, .m128, .m128, .m128, 0, 8⟩,
    ⟨0x16d, "i16x8.not", .unary, .m128, .m128, .void, 0, 8⟩,
    ⟨0x16e, "i16x8.eq", .compare, .b8, .m128, .m128, 0, 8⟩,
    ⟨0x16f, "i16x8.ne", .compare, .b8, .m128, .m128, 0, 8⟩,
    ⟨0x170, "i16x8.lt_s", .compare, .b8, .m128, .m128, 0, 8⟩,
    ⟨0x171, "i16x8.lt_u", .compare, .b8, .m128, .m128, 0, 8⟩,
    ⟨0x172, "i16x8.le_s", .compare, .b8, .m128, .m128, 0, 8⟩,
    ⟨0x173, "i16x8.le_u", .compare, .b8, .m128, .m128, 0, 8⟩,
    ⟨0x174, "i16x8.gt_s", .compare, .b8, .m128, .m128, 0, 8⟩,
    ⟨0x175, "i16x8.gt_u", .compare, .b8, .m128, .m128, 0, 8⟩,
    ⟨0x176, "i16x8.ge_s", .compare, .b8, .m128, .m128, 0, 8⟩,
    ⟨0x177, "i16x8.ge_u", .compare, .b8, .m128, .m128, 0, 8⟩,
    ⟨0x178, "i16x8.load", .load, .m128, .i32, .void, 16, 8⟩,
    ⟨0x179, "i16x8.store", .store, .void, .i32, .m128, 16, 8⟩]

/-- Vectors of four 32-bit integers. -/
def wordVectorInstructions : List Opcode :=
  [⟨0x17a, "i32x4.reinterpret_i8x16", .convert, .m128, .m128, .void, 0, 4⟩,
    ⟨0x17b, "i32x4.reinterpret_i16x8", .convert, .m128, .m128, .void, 0, 4⟩,
    ⟨0x17c, "i32x4.reinterpret_i64x2", .convert, .m128, .m128, .void, 0, 4⟩,
    ⟨0x17d, "i32x4.reinterpret_f32x4", .convert, .m128, .m128, .void, 0, 4⟩,
    ⟨0x17e, "i32x4.reinterpret_f64x2", .convert, .m128, .m128, .void, 0, 4⟩,
    ⟨0x17f, "i32x4.splat", .unary, .m128, .i32, .void, 0, 4⟩,
    ⟨0x180, "i32x4.extract", .binary, .i32, .m128, .i32, 0, 4⟩,
    ⟨0x181, "i32x4.add", .binary, .m128, .m128, .m128, 0, 4⟩,
    ⟨0x182, "i32x4.sub", .binary, .m128, .m128, .m128, 0, 4⟩,
    ⟨0x183, "i32x4.mul", .binary, .m128, .m128, .m128, 0, 4⟩,
    ⟨0x184, "i32x4.neg", .unary, .m128, .m128, .void, 0, 4⟩,
    ⟨0x185, "i32x4.shl", .binary, .m128, .m128, .i32, 0, 4⟩,
    ⟨0x186, "i32x4.shr_s", .binary, .m128, .m128, .i32, 0, 4⟩,
    ⟨0x187, "i32x4.shr_u", .binary, .m128, .m128, .i32, 0, 4⟩,
    ⟨0x188, "i32x4.and", .binary, .m128, .m128, .m128, 0, 4⟩,
    ⟨0x189, "i32x4.or", .binary, .m128, .m128, .m128, 0, 4⟩,
    ⟨0x18a, "i32x4.xor", .binary, .m128, .m128, .m128, 0, 4⟩,
    ⟨0x18b, "i32x4.not", .unary, .m128, .m128, .void, 0, 4⟩,
    ⟨0x18c, "i32x4.eq", .compare, .b4, .m128, .m128, 0, 4⟩,
    ⟨0x18d, "i32x4.ne", .compare, .b4, .m128, .m128, 0, 4⟩,
    ⟨0x18e, "i32x4.lt_s", .compare, .b4, .m128, .m128, 0, 4⟩,
    ⟨0x18f, "i32x4.lt_u", .compare, .b4, .m128, .m128, 0, 4⟩,
    ⟨0x190, "i32x4.le_s", .compare, .b4, .m128, .m128, 0, 4⟩,
    ⟨0x191, "i32x4.le_u", .compare, .b4, .m128, .m128, 0, 4⟩,
    ⟨0x192, "i32x4.gt_s", .compare, .b4, .m128, .m128, 0, 4⟩,
    ⟨0x193, "i32x4.gt_u", .compare, .b4, .m128, .m128, 0, 4⟩,
    ⟨0x194, "i32x4.ge_s", .compare, .b4, .m128, .m128, 0, 4⟩,
    ⟨0x195, "i32x4.ge_u", .compare, .b4, .m128, .m128, 0, 4⟩,
    ⟨0x196, "i32x4.load", .load, .m128, .i32, .void, 16, 4⟩,
    ⟨0x197, "i32x4.store", .store, .void, .i32, .m128, 16, 4⟩,
    ⟨0x198, "i32x4.load1", .load, .m128, .i32, .void, 4, 4⟩,
    ⟨0x199, "i32x4.load2", .load, .m128, .i32, .void, 4, 4⟩,
    ⟨0x19a, "i32x4.load3", .load, .m128, .i32, .void, 4, 4⟩,
    ⟨0x19b, "i32x4.store1", .store, .void, .i32, .m128, 4, 4⟩,
    ⟨0x19c, "i32x4.store2", .store, .void, .i32, .m128, 4, 4⟩,
    ⟨0x19d, "i32x4.store3", .store, .void, .i32, .m128, 4, 4⟩,
    ⟨0x19e, "i32x4.trunc_s", .convert, .m128, .m128, .void, 0, 4⟩,
    ⟨0x19f, "i32x4.trunc_u", .convert, .m128, .m128, .void, 0, 4⟩]

/-- Vectors of two 64-bit integers. -/
def longVectorInstructions : List Opcode :=
  [⟨0x1a0, "i64x2.reinterpret_i8x16", .convert, .m128, .m128, .void, 0, 2⟩,
    ⟨0x1a1, "i64x2.reinterpret_i16x8", .convert, .m128, .m128, .void, 0, 2⟩,
    ⟨0x1a2, "i64x2.reinterpret_i32x4", .convert, .m128, .m128, .void, 0, 2⟩,
    ⟨0x1a3, "i64x2.reinterpret_f32x4", .convert, .m128, .m128, .void, 0, 2⟩,
    ⟨0x1a4, "i64x2.reinterpret_f64x2", .convert, .m128, .m128, .void, 0, 2⟩,
    ⟨0x1a5, "i64x2.splat", .unary, .m128, .i64, .void, 0, 2⟩,
    ⟨0x1a6, "i64x2.extract", .binary, .i64, .m128, .i32, 0, 2⟩,
    ⟨0x1a7, "i64x2.add", .binary, .m128, .m128, .m128, 0, 2⟩,
    ⟨0x1a8, "i64x2.sub", .binary, .m128, .m128, .m128, 0, 2⟩,
    ⟨0x1a9, "i64x2.mul", .binary, .m128, .m128, .m128, 0, 2⟩,
    ⟨0x1aa, "i64x2.neg", .unary, .m128, .m128, .void, 0, 2⟩,
    ⟨0x1ab, "i64x2.shl", .binary, .m128, .m128, .i32, 0, 2⟩,
    ⟨0x1ac, "i64x2.shr_s", .binary, .m128, .m128, .i32, 0, 2⟩,
    ⟨0x1ad, "i64x2.shr_u", .binary, .m128, .m128, .i32, 0, 2⟩,
    ⟨0x1ae, "i64x2.and", .binary, .m128, .m128, .m128, 0, 2⟩,
    ⟨0x1af, "i64x2.or", .binary, .m128, .m128, .m128, 0, 2⟩,
    ⟨0x1b0, "i64x2.xor", .binary, .m128, .m128, .m128, 0, 2⟩,
    ⟨0x1b1, "i64x2.not", .unary, .m128, .m128, .void, 0, 2⟩,
    ⟨0x1b2, "i64x2.eq", .compare, .b2, .m128, .m128, 0, 2⟩,
    ⟨0x1b3, "i64x2.ne", .compare, .b2, .m128, .m128, 0, 2⟩,
    ⟨0x1b4, "i64x2.lt_s", .compare, .b2, .m128, .m128, 0, 2⟩,
    ⟨0x1b5, "i64x2.lt_u", .compare, .b2, .m128, .m128, 0, 2⟩,
    ⟨0x1b6, "i64x2.le_s", .compare, .b2, .m128, .m128, 0, 2⟩,
    ⟨0x1b7, "i64x2.le_u", .compare, .b2, .m128, .m128, 0, 2⟩,
    ⟨0x1b8, "i64x2.gt_s", .compare, .b2, .m128, .m128, 0, 2⟩,
    ⟨0x1b9, "i64x2.gt_u", .compare, .b2, .m128, .m128, 0, 2⟩,
    ⟨0x1ba, "i64x2.ge_s", .compare, .b2, .m128, .m128, 0, 2⟩,
    ⟨0x1bb, "i64x2.ge_u", .compare, .b2, .m128, .m128, 0, 2⟩,
    ⟨0x1bc, "i64x2.load", .load, .m128, .i32, .void, 16, 2⟩,
    ⟨0x1bd, "i64x2.store", .store, .void, .i32, .m128, 16, 2⟩,
    ⟨0x1be, "i64x2.trunc_s", .convert, .m128, .m128, .void, 0, 2⟩,
    ⟨0x1bf, "i64x2.trunc_u", .convert, .m128, .m128, .void, 0, 2⟩]

/-- Vectors of four 32-bit floats. -/
def floatVectorInstructions : List Opcode :=
  [⟨0x1c0, "f32x4.reinterpret_i8x16", .convert, .m128, .m128, .void, 0, 4⟩,
    ⟨0x1c1, "f32x4.reinterpret_i16x8", .convert, .m128, .m128, .void, 0, 4⟩,
    ⟨0x1c2, "f32x4.reinterpret_i32x4", .convert, .m128, .m128, .void, 0, 4⟩,
    ⟨0x1c3, "f32x4.reinterpret_i64x2", .convert, .m128, .m128, .void, 0, 4⟩,
    ⟨0x1c4, "f32x4.reinterpret_f64x2", .convert, .m128, .m128, .void, 0, 4⟩,
    ⟨0x1c5, "f32x4.splat", .unary, .m128, .f32, .void, 0, 4⟩,
    ⟨0x1c6, "f32x4.extract", .binary, .f32, .m128, .i32, 0, 4⟩,
    ⟨0x1c7, "f32x4.add", .binary, .m128, .m128, .m128, 0, 4⟩,
    ⟨0x1c8, "f32x4.sub", .binary, .m128, .m128, .m128, 0, 4⟩,
    ⟨0x1c9, "f32x4.mul", .binary, .m128, .m128, .m128, 0, 4⟩,
    ⟨0x1ca, "f32x4.neg", .unary, .m128, .m128, .void, 0, 4⟩,
    ⟨0x1cb, "f32x4.and", .binary, .m128, .m128, .m128, 0, 4⟩,
    ⟨0x1cc, "f32x4.or", .binary, .m128, .m128, .m128, 0, 4⟩,
    ⟨0x1cd, "f32x4.xor", .binary, .m128, .m128, .m128, 0, 4⟩,
    ⟨0x1ce, "f32x4.not", .unary, .m128, .m128, .void, 0, 4⟩,
    ⟨0x1cf, "f32x4.eq", .compare, .b4, .m128, .m128, 0, 4⟩,
    ⟨0x1d0, "f32x4.ne", .compare, .b4, .m128, .m128, 0, 4⟩,
    ⟨0x1d1, "f32x4.lt", .compare, .b4, .m128, .m128, 0, 4⟩,
    ⟨0x1d2, "f32x4.le", .compare, .b4, .m128, .m128, 0, 4⟩,
    ⟨0x1d3, "f32x4.gt", .compare, .b4, .m128, .m128, 0, 4⟩,
    ⟨0x1d4, "f32x4.ge", .compare, .b4, .m128, .m128, 0, 4⟩,
    ⟨0x1d5, "f32x4.load", .load, .m128, .i32, .void, 16, 4⟩,
    ⟨0x1d6, "f32x4.store", .store, .void, .i32, .m128, 16, 4⟩,
    ⟨0x1d7, "f32x4.load1", .load, .m128, .i32, .void, 4, 4⟩,
    ⟨0x1d8, "f32x4.load2", .load, .m128, .i32, .void, 4, 4⟩,
    ⟨0x1d9, "f32x4.load3", .load, .m128, .i32, .void, 4, 4⟩,
    ⟨0x1da, "f32x4.store1", .store, .void, .i32, .m128, 4, 4⟩,
    ⟨0x1db, "f32x4.store2", .store, .void, .i32, .m128, 4, 4⟩,
    ⟨0x1dc, "f32x4.store3", .store, .void, .i32, .m128, 4, 4⟩,
    ⟨0x1dd, "f32x4.abs", .unary, .m128, .m128, .void, 0, 4⟩,
    ⟨0x1de, "f32x4.min", .binary, .m128, .m128, .m128, 0, 4⟩,
    ⟨0x1df, "f32x4.max", .binary, .m128, .m128, .m128, 0, 4⟩,
    ⟨0x1e0, "f32x4.div", .binary, .m128, .m128, .m128, 0, 4⟩,
    ⟨0x1e1, "f32x4.sqrt", .unary, .m128, .m128, .void, 0, 4⟩,
    ⟨0x1e2, "f32x4.rcp", .unary, .m128, .m128, .void, 0, 4⟩,
    ⟨0x1e3, "f32x4.rsqrt", .unary, .m128, .m128, .void, 0, 4⟩,
    ⟨0x1e4, "f32x4.convert_s", .convert, .m128, .m128, .void, 0, 4⟩,
    ⟨0x1e5, "f32x4.convert_u", .convert, .m128, .m128, .void, 0, 4⟩]

/-- Vectors of two 64-bit floats, as far as the band reaches. -/
def doubleVectorInstructions : List Opcode :=
  [⟨0x1e6, "f64x2.reinterpret_i8x16", .convert, .m128, .m128, .void, 0, 2⟩,
    ⟨0x1e7, "f64x2.reinterpret_i16x8", .convert, .m128, .m128, .void, 0, 2⟩,
    ⟨0x1e8, "f64x2.reinterpret_i32x4", .convert, .m128, .m128, .void, 0, 2⟩,
    ⟨0x1e9, "f64x2.reinterpret_i64x2", .convert, .m128, .m128, .void, 0, 2⟩,
    ⟨0x1ea, "f64x2.reinterpret_f32x4", .convert, .m128, .m128, .void, 0, 2⟩,
    ⟨0x1eb, "f64x2.splat", .unary, .m128, .f64, .void, 0, 2⟩,
    ⟨0x1ec, "f64x2.extract", .binary, .f64, .m128, .i32, 0, 2⟩,
    ⟨0x1ed, "f64x2.add", .binary, .m128, .m128, .m128, 0, 2⟩,
    ⟨0x1ee, "f64x2.sub", .binary, .m128, .m128, .m128, 0, 2⟩,
    ⟨0x1ef, "f64x2.mul", .binary, .m128, .m128, .m128, 0, 2⟩,
    ⟨0x1f0, "f64x2.neg", .unary, .m128, .m128, .void, 0, 2⟩,
    ⟨0x1f1, "f64x2.and", .binary, .m128, .m128, .m128, 0, 2⟩,
    ⟨0x1f2, "f64x2.or", .binary, .m128, .m128, .m128, 0, 2⟩,
    ⟨0x1f3, "f64x2.xor", .binary, .m128, .m128, .m128, 0, 2⟩,
    ⟨0x1f4, "f64x2.not", .unary, .m128, .m128, .void, 0, 2⟩,
    ⟨0x1f5, "f64x2.eq", .compare, .b2, .m128, .m128, 0, 2⟩,
    ⟨0x1f6, "f64x2.ne", .compare, .b2, .m128, .m128, 0, 2⟩,
    ⟨0x1f7, "f64x2.lt", .compare, .b2, .m128, .m128, 0, 2⟩,
    ⟨0x1f8, "f64x2.le", .compare, .b2, .m128, .m128, 0, 2⟩,
    ⟨0x1f9, "f64x2.gt", .compare, .b2, .m128, .m128, 0, 2⟩,
    ⟨0x1fa, "f64x2.ge", .compare, .b2, .m128, .m128, 0, 2⟩,
    ⟨0x1fb, "f64x2.load", .load, .m128, .i32, .void, 16, 2⟩,
    ⟨0x1fc, "f64x2.store", .store, .void, .i32, .m128, 16, 2⟩,
    ⟨0x1fd, "f64x2.abs", .unary, .m128, .m128, .void, 0, 2⟩,
    ⟨0x1fe, "f64x2.min", .binary, .m128, .m128, .m128, 0, 2⟩,
    ⟨0x1ff, "f64x2.max", .binary, .m128, .m128, .m128, 0, 2⟩]

end WasmText.Opcode
