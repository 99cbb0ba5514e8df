-- Every type that has a JSON form is read back from the text that is written for it.
-- A record of the model is made up of its fields one by one, and the choices are
-- told apart by their names.
import Simt.Json.Model
import Simt.Proofs.Json.Record

namespace Simt

open Json Json.Codec

theorem Dim3.codec_faithful : Dim3.codec.Faithful :=
  record_faithful (by decide) fun _ =>
    .required u32_faithful <| .required u32_faithful <| .required u32_faithful .done

theorem Dim3.listCodec_faithful : Dim3.listCodec.Faithful :=
  (vector_faithful 3 u32_faithful).via fun _ => rfl

theorem KernelResources.codec_faithful : KernelResources.codec.Faithful :=
  record_faithful (by decide) fun _ =>
    .required u32_faithful <| .required u32_faithful <| .required u32_faithful <|
    .required u32_faithful <| .required u32_faithful <| .required u32_faithful .done

theorem OpClass.codec_faithful : OpClass.codec.Faithful :=
  choice_faithful fun op => by cases op <;> decide

theorem MemoryOp.codec_faithful : MemoryOp.codec.Faithful :=
  choice_faithful fun op => by cases op <;> decide

theorem MemoryKind.codec_faithful : MemoryKind.codec.Faithful :=
  choice_faithful fun kind => by cases kind <;> decide

theorem MemorySpace.codec_faithful : MemorySpace.codec.Faithful :=
  record_faithful (by decide) fun _ =>
    .required MemoryKind.codec_faithful <| .required u32_faithful .done

theorem Instruction.codec_faithful : Instruction.codec.Faithful :=
  record_faithful (by decide) fun _ =>
    .required u32_faithful <| .required u32_faithful <| .required OpClass.codec_faithful <|
    .required MemoryOp.codec_faithful <| .required (vector_faithful 4 u32_faithful) <|
    .required (vector_faithful 4 u32_faithful) <| .required bool_faithful <|
    .required bool_faithful <| .required i32_faithful <| .required i32_faithful <|
    .required i32_faithful <| .required (vector_faithful 8 i32_faithful) <|
    .required u32_faithful <| .required u32_faithful <| .required MemorySpace.codec_faithful <|
    .required bool_faithful .done

theorem Config.codec_faithful : Config.codec.Faithful :=
  record_faithful (by decide) fun _ =>
    .optional string_faithful <| .optional u64_faithful <| .optional u64_faithful <|
    .optional u64_faithful .done

theorem Snapshot.codec_faithful : Snapshot.codec.Faithful :=
  record_faithful (by decide) fun _ =>
    .required string_faithful <| .required string_faithful <|
    .required Dim3.listCodec_faithful <| .required Dim3.listCodec_faithful <|
    .required u32_faithful <| .required u32_faithful <| .required u32_faithful <|
    .required u32_faithful <| .required u32_faithful <| .optional u64_faithful <|
    .optional u64_faithful <| .required (list_faithful u32_faithful) <|
    .required u64_faithful .done

/-- Whatever a value of the model holds, the text written for it is read as that value:
all characters of its strings, whole numbers of any size that their words have, lists of
any length, and nothing of it depends on what other values are. -/
theorem every_value_is_read_back_from_its_text :
    (∀ d, Dim3.codec.decode (Dim3.codec.encode d) = .ok d) ∧
    (∀ r, KernelResources.codec.decode (KernelResources.codec.encode r) = .ok r) ∧
    (∀ op, OpClass.codec.decode (OpClass.codec.encode op) = .ok op) ∧
    (∀ op, MemoryOp.codec.decode (MemoryOp.codec.encode op) = .ok op) ∧
    (∀ kind, MemoryKind.codec.decode (MemoryKind.codec.encode kind) = .ok kind) ∧
    (∀ space, MemorySpace.codec.decode (MemorySpace.codec.encode space) = .ok space) ∧
    (∀ config, Config.codec.decode (Config.codec.encode config) = .ok config) ∧
    (∀ snapshot, Snapshot.codec.decode (Snapshot.codec.encode snapshot) = .ok snapshot) ∧
    (∀ inst, Instruction.codec.decode (Instruction.codec.encode inst) = .ok inst) :=
  ⟨Dim3.codec_faithful.decode_encode, KernelResources.codec_faithful.decode_encode,
    OpClass.codec_faithful.decode_encode, MemoryOp.codec_faithful.decode_encode,
    MemoryKind.codec_faithful.decode_encode, MemorySpace.codec_faithful.decode_encode,
    Config.codec_faithful.decode_encode, Snapshot.codec_faithful.decode_encode,
    Instruction.codec_faithful.decode_encode⟩

-- The texts are compact, with the fields in the order of the list of the codec.
example : Config.codec.encode ⟨"a \"b\"\n", 12, 32, 0⟩ =
    "\x7b\"name\":\"a \\\"b\\\"\\n\",\"num_sms\":12,\"warp_size\":32,\"max_warps_per_sm\":0\x7d" := by
  cbv

example : MemorySpace.codec.encode ⟨.shared, 3⟩ =
    "\x7b\"kind\":\"Shared\",\"bank\":3\x7d" := by
  cbv

end Simt
