import HeatingControl.Error
import HeatingControl.Text.Utf8

/-!
# Firmware images

An image starts with a header of 24 octets and a segment header of 8, then comes a descriptor of
256 octets with the identity of the application. A shorter image carries no descriptor.
-/
namespace HeatingControl

structure AppDescriptor where
  version : String
  projectName : String
  time : String
  date : String
  frameworkVersion : String
  deriving DecidableEq, Repr

structure FirmwareImage where
  size : Nat
  descriptor : Option AppDescriptor
  deriving DecidableEq, Repr

namespace FirmwareImage

def imageMagic : UInt8 := 0xE9

/-- The mark of a descriptor, the least octet first. -/
def descriptorMagic : Bytes := [0x32, 0x54, 0xCD, 0xAB]

def descriptorOffset : Nat := 32
def descriptorLength : Nat := 256

def range (bs : Bytes) (first last : Nat) : Bytes := (bs.drop first).take (last - first)

def zeroEnded (field : Bytes) : String := Utf8.decodeLossy (field.takeWhile (· ≠ 0))

def readDescriptor (d : Bytes) : Except ValidationError AppDescriptor :=
  if d.take 4 ≠ descriptorMagic then .error (.invalidFirmware "app descriptor magic mismatch")
  else .ok {
    version := zeroEnded (range d 16 48)
    projectName := zeroEnded (range d 48 80)
    time := zeroEnded (range d 80 96)
    date := zeroEnded (range d 96 112)
    frameworkVersion := zeroEnded (range d 112 144) }

def inspect (bs : Bytes) : Except ValidationError FirmwareImage :=
  match bs with
  | [] => .error (.invalidFirmware "empty image")
  | magic :: _ =>
    if magic ≠ imageMagic then .error (.invalidFirmware "image magic mismatch")
    else if bs.length < descriptorOffset + descriptorLength then .ok ⟨bs.length, none⟩
    else
      (readDescriptor (range bs descriptorOffset (descriptorOffset + descriptorLength))).map
        fun d => ⟨bs.length, some d⟩

end FirmwareImage
end HeatingControl
