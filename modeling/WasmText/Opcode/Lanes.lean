import WasmText.Opcode.Basic

/-!
# Lane instructions

The second vector band of the opcode table, in ascending order of codes.
-/

namespace WasmText.Opcode

/-- The vectors of two 64-bit floats that the first band has no room for. -/
def doubleVectorRemainder : List Opcode :=
  [⟨0x200, "f64x2.div", .binary, .m128, .m128, .m128, 0, 2⟩,
    ⟨0x201, "f64x2.sqrt", .unary, .m128, .m128, .void, 0, 2⟩,
    ⟨0x202, "f64x2.rcp", .unary, .m128, .m128, .void, 0, 2⟩,
    ⟨0x203, "f64x2.rsqrt", .unary, .m128, .m128, .void, 0, 2⟩,
    ⟨0x204, "f64x2.convert_s", .convert, .m128, .m128, .void, 0, 2⟩,
    ⟨0x205, "f64x2.convert_u", .convert, .m128, .m128, .void, 0, 2⟩]

/-- Swizzles, shuffles, selection and replacement of lanes. -/
def laneInstructions : List Opcode :=
  [⟨0x206, "i64x2.swizzle", .vectorSwizzle, .m128, .m128, .void, 0, 2⟩,
    ⟨0x207, "i64x2.shuffle", .vectorSwizzle, .m128, .m128, .void, 0, 2⟩,
    ⟨0x208, "i64x2.select", .select, .m128, .m128, .m128, 0, 2⟩,
    ⟨0x209, "i64x2.replace", .vectorReplace, .m128, .i32, .i32, 0, 2⟩,
    ⟨0x20a, "i32x4.swizzle", .vectorSwizzle, .m128, .m128, .void, 0, 4⟩,
    ⟨0x20b, "i32x4.shuffle", .vectorSwizzle, .m128, .m128, .void, 0, 4⟩,
    ⟨0x20c, "i32x4.select", .select, .m128, .m128, .m128, 0, 4⟩,
    ⟨0x20d, "i32x4.replace", .vectorReplace, .m128, .i32, .i32, 0, 4⟩,
    ⟨0x20e, "i16x8.swizzle", .vectorSwizzle, .m128, .m128, .void, 0, 8⟩,
    ⟨0x20f, "i16x8.shuffle", .vectorSwizzle, .m128, .m128, .void, 0, 8⟩,
    ⟨0x210, "i16x8.select", .select, .m128, .m128, .m128, 0, 8⟩,
    ⟨0x211, "i16x8.replace", .vectorReplace, .m128, .i32, .i32, 0, 8⟩,
    ⟨0x212, "i8x16.swizzle", .vectorSwizzle, .m128, .m128, .void, 0, 16⟩,
    ⟨0x213, "i8x16.shuffle", .vectorSwizzle, .m128, .m128, .void, 0, 16⟩,
    ⟨0x214, "i8x16.select", .select, .m128, .m128, .m128, 0, 16⟩,
    ⟨0x215, "i8x16.replace", .vectorReplace, .m128, .i32, .i32, 0, 16⟩,
    ⟨0x216, "b64x2.swizzle", .vectorSwizzle, .b2, .b2, .void, 0, 2⟩,
    ⟨0x217, "b64x2.shuffle", .vectorSwizzle, .b2, .b2, .void, 0, 2⟩,
    ⟨0x218, "b64x2.select", .select, .b2, .b2, .b2, 0, 2⟩,
    ⟨0x219, "b64x2.replace", .vectorReplace, .b2, .i32, .i32, 0, 2⟩,
    ⟨0x21a, "b32x4.swizzle", .vectorSwizzle, .b4, .b4, .void, 0, 4⟩,
    ⟨0x21b, "b32x4.shuffle", .vectorSwizzle, .b4, .b4, .void, 0, 4⟩,
    ⟨0x21c, "b32x4.select", .select, .b4, .b4, .b4, 0, 4⟩,
    ⟨0x21d, "b32x4.replace", .vectorReplace, .b4, .i32, .i32, 0, 4⟩,
    ⟨0x21e, "b16x8.swizzle", .vectorSwizzle, .b8, .b8, .void, 0, 8⟩,
    ⟨0x21f, "b16x8.shuffle", .vectorSwizzle, .b8, .b8, .void, 0, 8⟩,
    ⟨0x220, "b16x8.select", .select, .b8, .b8, .b8, 0, 8⟩,
    ⟨0x221, "b16x8.replace", .vectorReplace, .b8, .i32, .i32, 0, 8⟩,
    ⟨0x222, "b8x16.swizzle", .vectorSwizzle, .b16, .b16, .void, 0, 16⟩,
    ⟨0x223, "b8x16.shuffle", .vectorSwizzle, .b16, .b16, .void, 0, 16⟩,
    ⟨0x224, "b8x16.select", .select, .b16, .b16, .b16, 0, 16⟩,
    ⟨0x225, "b8x16.replace", .vectorReplace, .b16, .i32, .i32, 0, 16⟩,
    ⟨0x226, "f64x2.swizzle", .vectorSwizzle, .m128, .m128, .void, 0, 2⟩,
    ⟨0x227, "f64x2.shuffle", .vectorSwizzle, .m128, .m128, .void, 0, 2⟩,
    ⟨0x228, "f64x2.select", .select, .m128, .m128, .m128, 0, 2⟩,
    ⟨0x229, "f64x2.replace", .vectorReplace, .m128, .i32, .f64, 0, 2⟩,
    ⟨0x22a, "f32x4.swizzle", .vectorSwizzle, .m128, .m128, .void, 0, 4⟩,
    ⟨0x22b, "f32x4.shuffle", .vectorSwizzle, .m128, .m128, .void, 0, 4⟩,
    ⟨0x22c, "f32x4.select", .select, .m128, .m128, .m128, 0, 4⟩,
    ⟨0x22d, "f32x4.replace", .vectorReplace, .m128, .i32, .f32, 0, 4⟩]

end WasmText.Opcode
