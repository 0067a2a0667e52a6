import TextArchive.Text.CodeRange

/-!
Simple case folding: one character for one, so that letters that differ in case alone become equal.
-/

set_option autoImplicit false
set_option relaxedAutoImplicit false

namespace TextArchive.Text.Folding

/-- Code points that fold by adding one amount: in each range, every member or every second one from
the first on. -/
structure Shift where
  stride : Nat
  amount : Int
  members : List CodeRange

def shift (stride : Nat) (amount : Int) (members : String) : Shift :=
  ⟨stride, amount, CodeRange.ofText members⟩

/-- Whether a code point is folded by the shift. -/
def Shift.moves (s : Shift) (code : Nat) : Bool :=
  s.members.any fun r => r.covers code && (code - r.first) % s.stride = 0

/-- Foldings of the non-ASCII code points below `10000`. -/
def shifts : List Shift :=
  [
    shift 1 (-42308) "a7aa",
    shift 1 (-42280) "a78d",
    shift 1 (-35332) "a77d",
    shift 1 (-10815) "2c7e-2c7f",
    shift 1 (-10783) "2c6f",
    shift 1 (-10782) "2c70",
    shift 1 (-10780) "2c6d",
    shift 1 (-10749) "2c6e",
    shift 1 (-10743) "2c62",
    shift 1 (-10727) "2c64",
    shift 1 (-8383) "212a",
    shift 1 (-8262) "212b",
    shift 1 (-7615) "1e9e",
    shift 1 (-7517) "2126",
    shift 1 (-7173) "1fbe",
    shift 1 (-3814) "2c63",
    shift 1 (-268) "17f",
    shift 1 (-195) "243",
    shift 1 (-163) "23d",
    shift 1 (-130) "220 3fd-3ff",
    shift 1 (-128) "1ff8-1ff9",
    shift 1 (-126) "1ffa-1ffb",
    shift 1 (-121) "178",
    shift 1 (-112) "1fea-1feb",
    shift 1 (-100) "1fda-1fdb",
    shift 1 (-97) "1f6",
    shift 1 (-86) "1fc8-1fcb",
    shift 1 (-74) "1fba-1fbb",
    shift 1 (-64) "3f5",
    shift 1 (-60) "3f4",
    shift 1 (-58) "1e9b",
    shift 1 (-56) "1f7",
    shift 1 (-54) "3f0",
    shift 1 (-48) "3f1",
    shift 1 (-30) "3d0",
    shift 1 (-25) "3d1",
    shift 1 (-22) "3d6",
    shift 1 (-15) "3d5",
    shift 1 (-9) "1fbc 1fcc 1ffc",
    shift 1 (-8) "1f08-1f0f 1f18-1f1d 1f28-1f2f 1f38-1f3f 1f48-1f4d 1f68-1f6f 1f88-1f8f 1f98-1f9f 1fa8-1faf
  1fb8-1fb9 1fd8-1fd9 1fe8-1fe9",
    shift 1 (-7) "3f9 1fec",
    shift 1 1 "187 18b 191 198 1a7 1ac 1af 1b8 1bc 1c5 1c8 23b 241 376 3c2 3f7 3fa 2183 2c60 2c72 2c75 2cf2
  a78b",
    shift 1 2 "1c4 1c7 1ca 1f1",
    shift 1 8 "3cf",
    shift 1 15 "4c0",
    shift 1 16 "2160-216f",
    shift 1 26 "24b6-24cf",
    shift 1 28 "2132",
    shift 1 32 "c0-d6 d8-de 391-3a1 3a3-3ab 410-42f ff21-ff3a",
    shift 1 37 "388-38a",
    shift 1 38 "386",
    shift 1 48 "531-556 2c00-2c2e",
    shift 1 63 "38e-38f",
    shift 1 64 "38c",
    shift 1 69 "244",
    shift 1 71 "245",
    shift 1 79 "18e",
    shift 1 80 "400-40f",
    shift 1 116 "345",
    shift 1 202 "18f",
    shift 1 203 "190",
    shift 1 205 "189-18a 193",
    shift 1 206 "186",
    shift 1 207 "194",
    shift 1 209 "197",
    shift 1 210 "181",
    shift 1 211 "196 19c",
    shift 1 213 "19d",
    shift 1 214 "19f",
    shift 1 217 "1b1-1b2",
    shift 1 218 "1a6 1a9 1ae",
    shift 1 219 "1b7",
    shift 1 775 "b5",
    shift 1 7264 "10a0-10c5 10c7 10cd",
    shift 1 10792 "23e",
    shift 1 10795 "23a",
    shift 2 (-8) "1f59-1f5f",
    shift 2 1 "100-12e 132-136 139-147 14a-176 179-17d 182-184 1a0-1a4 1b3-1b5 1cb-1db 1de-1ee 1f2-1f4
  1f8-21e 222-232 246-24e 370-372 3d8-3ee 460-480 48a-4be 4c1-4cd 4d0-526 1e00-1e94 1ea0-1efe
  2c67-2c6b 2c80-2ce2 2ceb-2ced a640-a66c a680-a696 a722-a72e a732-a76e a779-a77b a77e-a786
  a790-a792 a7a0-a7a8"]

def code (n : Nat) : Nat :=
  if n < 128 then
    if 65 ≤ n && n ≤ 90 then n + 32 else n
  else if n < 0x10000 then
    match shifts.find? (·.moves n) with
    | some s => ((n : Int) + s.amount).toNat
    | none => n
  else if 0x10400 ≤ n && n < 0x10428 then n + 40
  else n

end TextArchive.Text.Folding
