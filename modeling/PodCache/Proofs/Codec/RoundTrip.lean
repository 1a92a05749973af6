import PodCache.Proofs.Codec.Binary
import PodCache.Proofs.Codec.Shapes
import PodCache.Proofs.Pod.Writes

/-!
# Values that survive the store and the bus

A codec carries values when each of them is read back from what is written for it, is told from
every other, and is adopted by a peer that hears of it, which takes no value for the empty payload
(`Codec.Carries`).  Lawful layouts and shapes make such codecs; in binary form a value is moreover
read whatever octets follow it, and less than the whole of it is refused
(`Stored.carries_of_codecs`).
-/

namespace PodCache

namespace Codec

variable {V : Type} {codec : Codec V} {fits : V → Prop}

/-- The values that fit reach whoever reads them. -/
structure Carries (codec : Codec V) (fits : V → Prop) : Prop where
  encode : ∀ v, codec.encode v = .ok (codec.bytes v)
  decode : ∀ v, fits v → codec.decode (codec.bytes v) = .ok v
  injective : ∀ v w, fits v → fits w → codec.bytes v = codec.bytes w → v = w
  bytes_ne_nil : ∀ v, codec.bytes v ≠ []
  /-- A peer reads the event of a new value as it was sent. -/
  heard : ∀ key sender v, Event.decode (Event.set key sender (codec.bytes v)).encode =
    .ok (Event.set key sender (codec.bytes v))
  /-- A peer that hears of a new value keeps it. -/
  adopted : ∀ {ω : Type} (k : Core V ω) key sender v, fits v → k.settings.codec = codec →
    k.settings.transform = none →
    Pod.Gives (Pod.apply (Event.set key sender (codec.bytes v))) k () (k.keep key v)

theorem carries_of_decode (he : ∀ v, codec.encode v = .ok (codec.bytes v))
    (hd : ∀ v, fits v → codec.decode (codec.bytes v) = .ok v) (hb : ∀ v, codec.bytes v ≠ []) :
    codec.Carries fits where
  encode := he
  decode := hd
  injective v w hv hw h := by
    have hread := hd v hv
    rw [h, hd w hw] at hread
    exact (Except.ok.inj hread).symm
  bytes_ne_nil := hb
  heard key sender v := by rw [Event.decode_encode, Event.normal_set key sender (hb v)]
  adopted k key sender v hv hcodec htransform := by
    have hpayload : (Event.set key sender (codec.bytes v)).payload = codec.bytes v := rfl
    have hconsidered : k.considered (Event.set key sender (codec.bytes v)) = k := by
      rw [Core.considered, htransform]
      rfl
    have hadopted : k.adopted (Event.set key sender (codec.bytes v)) = some v := by
      rw [Core.adopted, htransform, hcodec]
      dsimp only
      rw [hpayload, hd v hv]
      rfl
    have happlied : k.applied (Event.set key sender (codec.bytes v)) = k.keep key v := by
      change (if (Event.set key sender (codec.bytes v)).payload = [] then k else
        (k.considered _).keepAny key (k.adopted _)) = _
      rw [hpayload, if_neg (hb v), hconsidered, hadopted]
      rfl
    rw [← happlied]
    exact Pod.gives_apply _ k

theorem decode_ofReader {write : V → Bytes} {read : Bytes → Option V} {bytes : Bytes} {v : V}
    (h : read bytes = some v) : (ofReader write read).decode bytes = .ok v := by
  simp only [ofReader, h]

theorem decode_ofReader_of_none {write : V → Bytes} {read : Bytes → Option V} {bytes : Bytes}
    (h : read bytes = none) :
    (ofReader write read).decode bytes = .error (.deserialization "malformed value") := by
  simp only [ofReader, h]

theorem carries_json {shape : Json.Shape V} (h : shape.Lawful) :
    (json shape).Carries fun _ => True :=
  carries_of_decode (fun _ => rfl) (fun v _ => decode_ofReader (h.read?_render v)) h.render_ne_nil

theorem decode_binary_append {format : Binary.Format V} (h : format.Lawful fits) {v : V}
    (hv : fits v) (extra : Bytes) :
    (binary format).decode ((binary format).bytes v ++ extra) = .ok v :=
  decode_ofReader (congrArg (Option.map Prod.fst) (h.take_put v extra hv))

theorem decode_binary_of_prefix {format : Binary.Format V} (h : format.Lawful fits) {v : V}
    (hv : fits v) {front back : Bytes} (hbytes : (binary format).bytes v = front ++ back)
    (hback : back ≠ []) :
    (binary format).decode front = .error (.deserialization "malformed value") :=
  decode_ofReader_of_none
    (congrArg (Option.map Prod.fst) (h.take_of_prefix hv hbytes hback))

theorem carries_binary {format : Binary.Format V} (h : format.Lawful fits) :
    (binary format).Carries fits :=
  carries_of_decode (fun _ => rfl)
    (fun v hv => by simpa using decode_binary_append h hv [])
    h.put_ne_nil

end Codec

/-- The types of the values that are stored. -/
inductive Stored where
  | text
  | word
  | short
  | truth
  | user
  | optionalText
  | longs

namespace Stored

open Binary (Format)

/-- The values of a type. -/
@[reducible] def Value : Stored → Type
  | .text => String
  | .word => UInt64
  | .short => Int32
  | .truth => Bool
  | .user => User
  | .optionalText => Option String
  | .longs => List Int64

/-- How the values of a type are spelled in JSON. -/
def shape : (kind : Stored) → Json.Shape kind.Value
  | .text => .string
  | .word => .word
  | .short => .short
  | .truth => .bool
  | .user => .user
  | .optionalText => .optionalString
  | .longs => .list .long

/-- How the values of a type are laid out. -/
def format : (kind : Stored) → Format kind.Value
  | .text => .string
  | .word => .word
  | .short => .short
  | .truth => .bool
  | .user => .user
  | .optionalText => .optional .string
  | .longs => .list .long

/-- The values that a machine of 64 bits can hold: the lengths of texts and of lists are words. -/
def Fits : (kind : Stored) → kind.Value → Prop
  | .text => Format.TextFits
  | .word | .short | .truth => fun _ => True
  | .user => fun u => Format.TextFits u.name
  | .optionalText => fun s => ∀ x ∈ s, Format.TextFits x
  | .longs => Format.ListFits fun _ => True

theorem lawful_shape (kind : Stored) : kind.shape.Lawful := by
  cases kind with
  | text => exact Json.Shape.lawful_string
  | word => exact Json.Shape.lawful_word
  | short => exact Json.Shape.lawful_short
  | truth => exact Json.Shape.lawful_bool
  | user => exact Json.Shape.lawful_user
  | optionalText => exact Json.Shape.lawful_optionalString
  | longs => exact Json.Shape.lawful_long.list

theorem lawful_format (kind : Stored) : kind.format.Lawful kind.Fits := by
  cases kind with
  | text => exact Format.lawful_string
  | word => exact Format.lawful_word
  | short => exact Format.lawful_short
  | truth => exact Format.lawful_bool
  | user => exact Format.lawful_user
  | optionalText => exact Format.lawful_string.optional
  | longs => exact Format.lawful_long.list

/-- JSON and the binary form carry the values of every type.  In binary form a value is read from
the front of any octets that begin with it, and what breaks off before its end is refused. -/
theorem carries_of_codecs (kind : Stored) :
    (Codec.json kind.shape).Carries (fun _ => True) ∧
      (Codec.binary kind.format).Carries kind.Fits ∧
      ∀ v, kind.Fits v →
        (∀ extra, (Codec.binary kind.format).decode
          ((Codec.binary kind.format).bytes v ++ extra) = .ok v) ∧
        ∀ front back, (Codec.binary kind.format).bytes v = front ++ back → back ≠ [] →
          ∃ detail, (Codec.binary kind.format).decode front = .error (.deserialization detail) := by
  have hformat := lawful_format kind
  refine ⟨Codec.carries_json (lawful_shape kind), Codec.carries_binary hformat, fun v hv => ?_⟩
  refine ⟨Codec.decode_binary_append hformat hv, fun front back hbytes hback => ?_⟩
  exact ⟨_, Codec.decode_binary_of_prefix hformat hv hbytes hback⟩

theorem carries_of_codecs_with_two_numbers :
    (Codec.json (.list .long)).decode (Bytes.ofText "[-1,2]") = .ok [-1, 2] ∧
      (Codec.binary (.list .long)).decode
        [2, 0, 0, 0, 0, 0, 0, 0, 255, 255, 255, 255, 255, 255, 255, 255,
          2, 0, 0, 0, 0, 0, 0, 0, 9] = .ok [-1, 2] ∧
      ∃ detail, (Codec.binary (.list .long)).decode
        [2, 0, 0, 0, 0, 0, 0, 0, 255, 255, 255] = .error (.deserialization detail) := by
  obtain ⟨hjson, -, hbinary⟩ := carries_of_codecs .longs
  have hfits : Stored.longs.Fits [-1, 2] := ⟨by decide, fun _ _ => trivial⟩
  refine ⟨?_, (hbinary [-1, 2] hfits).1 [9], (hbinary [-1, 2] hfits).2 _
    [255, 255, 255, 255, 255, 2, 0, 0, 0, 0, 0, 0, 0] rfl nofun⟩
  exact hjson.decode [-1, 2] trivial

end Stored

end PodCache
