import Bundler.Text.Unicode.Runs

/-!
# Ages

The version of the standard in which a code point was given its meaning.
-/

namespace Bundler.Text.Unicode

def versions : List String := [
  "1.1", "2.0", "2.1", "3.0", "3.1", "3.2", "4.0", "4.1", "5.0", "5.1", "5.2", "6.0", "6.1", "6.2",
  "6.3", "7.0", "8.0", "9.0", "10.0", "11.0", "12.0", "12.1", "13.0", "14.0", "15.0", "15.1",
  "16.0"]

/-- The runs of equal age; the number of a class is the place of its version. -/
def ageRuns : Runs :=
  Runs.read 0 none #[] <| String.toList <| String.join [
  "502A4D30A8DFG18D3G11H14I89A5D2G47AD10A5D17G70A9DF8G5H3G2AD13F4J2A2J2bA3IAP4b7AbAb20Ab44AJ7AD2F",
  "ADADADAD18A2EF5G4HD12AD66AD12AD41AJ2D2F4D53A2F2A2F2A2FI28A2D8A2H2A6I16F4I16J2K2L8Pb38A2b7AT39A",
  "TAD2b2PMb17BH13B10AI9AB3H8b27A4bT5A11b4GMP5JHA9G5JAOXHAL26A5J19A3D3G6HL14A2F72A2D5AD15AD30A2G",
  "10A5DG14Db30D3G27D2b3G30H18J49DF14b59I2b3T46K2b15Kb28L2bLb11S5b31Xb2X5ba8XMP11M6P2QX8R10W11XT",
  "15RQ27MPK3AG53A2L18AKL5AK2L25A2J5LP2K2IH2IP3Ab8A2b2A2b22Ab7AbA3b4A2bAG7A2b2A2b3AH8bA4b2Ab5A2b",
  "21AK2ST2bGAGb6A4b2A2b22Ab7Ab2Ab2Ab2A2bAb5A4b2A2b3A3bJ7b4AbA7b15AJT10b3Ab7AGAb3Ab22Ab7Ab2Ab5A2b",
  "10Ab3Ab3A2bA15bA3G2b10AMG7bQ6Sb3Ab8A2b2A2b22Ab7Ab2AbG4A2b8AJ2b2A2b3A7bW2A4b2Ab3A2J2b11AG6L10b",
  "2Ab6A3b3Ab4A3b2AbAb2A3b2A3b3A3b8AH3A4b5A3b3Ab4A2bJ6bA14bH12A8G5bP3AT8Ab3Ab23Ab10AP5A2bXJ7Ab3Ab",
  "4A7b2Ab2JQ2bX2b2A2J2b10A7bU8JRP2AT8Ab3Ab23Ab10Ab5A2b2G7Ab3Ab4A7b2A6bXAb2A2I2b10Ab2IY12bSP2AW8A",
  "b3Ab23AL16AL2SJ6AJb3Ab4ALR4b3RA7RQ2A2J2b10A6J3R7JbW2Db18D3b24Db9DbD2b7D3bD4b6DbDb8D6b10P2b3D",
  "12b58A4b29A37b2AbAbU2AUAbUA6U4AU7AU3AbAbA2U2AU13AU3A2b5AbAb6AYb10A2b2A2M32b72Bb33BD2J4b27B4L6B",
  "DBb21B3D7BDB3Db15DbJD2H3J4K2L37b34DJ5DJ2DJ7D3J4D6J26D64J4K2J38AbM5bM2b39A2F2HAH3M90A5K68A5K82A",
  "6K7DH63DHDb4D2b7DbDb4D2b39DHDb4D2b31DHDb4D2b7DbDb4D2b7DH7Db23DH31DHDb4D2b7DH39DH19D2b2L2H28D3b",
  "26H6b85DQ2b6Q2bK630D9K29D3b81D8P7b13FX7FX9bX23F9b20F12b13Fb3Fb2F12b93DG2b10D6b10G6b15DX10D6b",
  "88DT7b42DJ5b70K10b29G2Pb12G4b12G4bG3b42G2b5G11b42H2K4b26H6b10HK3b2H32G28H2b2H63Kb29K2b11K6b10K",
  "6b14K2b15P2W14X49b76IXb2a45I2Xa43J3M12J6M52L8b4L56J3b15J3b51J9R2a5b43T2b3T8M8b35K4MS2PU5b108G",
  "88H7I28J15P4SXRLK2I155AB4J90A6J22A2b6A2b38A2b6A2b8AbAbAbAb31A2b53Ab15Ab14A2b6Ab19A2b3Ab9Ab47AD",
  "23AF6D5F2G2HF7H5FJb4O7AF2b27Ab5H8L3b11ABC3D2F4H3KLN3PQSX15b18A2D7FH4IJ15b57A2DGH15FH2IJ3K48ADI",
  "4JK2Q4b91A9D12F242A14FAD121ADF30D52F2G11H12IK11L7P4RS37A2D3a22b11A21b139A20FG150A10F80A8D8F20A",
  "2G2FHD86A2D12F2H10F8G11HJ2K2G16HI10J3K4J10KL19KLK4L24KP4AL4A2L28AL35ALAL4A3LAK7A2L7A14F31A3L",
  "24AL14AL7H4IMJM2L28F4J16F256D512F14G6H7I5J4I41J3P5J5K26P2b32PbW34P3T12PU8PS25T4Q15TU47HX47HX",
  "13I3JK3J4I6J2K107H7K2M5b45HbM5bM2b54H2M7bHL14bL23H9b7Hb7Hb7Hb7Hb7Hb7Hb7Hb7Hb32J24H4J2H19JK10M",
  "7P2R5S5TU3W11X34b26Db89D12b214D26b12D4Z56A3D3FDAb84A2F2b6A2F94AF5b40AJSTb94Ab16A24D3L5W16H20J",
  "2a9bZ16F29A2Gb36A12KG15F28A2GH50A15F12A4G47AV119A4G99A2G31AG6582D10W64G20902A22H8J8KM9Q21S5T",
  "13W3X1165D3b18D2F16DF12DF3DFD9b48K300J20b32J2L18J8M28J6PQM88K8b23H4I5J2I107J2LQ2L2M12P10LM3PRT",
  "2P6Q2T6U2X5U4W3a2b2XbXb5X3a21b3X2WP2ML5J44HW3b10K6b56I8b69JR8b12J6b28K2Q2T84J11bJ29K3b78Kb11K",
  "4b2K31Pb55J9b14J2b10J2b4J28K4P67K24b5K23M10b6L2b6L2b6L9b7Lb7Lb48P4Q2P2U4W4b80Q46K2b10K6b11172B",
  "12b23K4b49K4b2048B6702A2M59F3K2b106H38b7A12b5A5bD25Ab5AbAb2Ab2Ab108A16LX16b365A16X64A2b54A7bX",
  "32E12AFG2X16F10H6b4A3J7P2Q21A2F2G10Ab19Ab4A4b3AFAb135A2bAb94A2F94A3b6A2b6A2b6A2b3A3b7Ab7A10b3D",
  "C3A12Gb26Gb19Gb2Gb15G2b14G34b123G5b3G4b45G3b9G75H2P2Rb12JW3bP47b46J130b29J3b49J15b28P4b31EP4E",
  "9b3S27E5b43P5b30GbG36H4b14H42b38E2G38E80G2b10G6b36R4b36R4b40P8b52P11bP11Xb15Xb7Xb2Xb11Xb15Xb7X",
  "b2X3b52a12b311P9b22P10b8P24b6Xb42Xb9X69b6G2bGb44Gb2G3bG2bG22Kb9K63P8b9P48b19Qb2Q5b5Q26I2K3bI",
  "26J5bJ64b56M4b2Q2M16Q2b46Q4Hb2H5b8Hb3Hb27H2T2b3H4b9HT7b9H7b32K32P32b39P4b12P9b54K3b29K2b27K5b",
  "8K18P7b4P12b7P80b73K55b51Q13b51Q7b6Q40T8b10T6b38a3b29a8b2a208b31Kb42Wb3W2b2W16b3a55ba3Y40T8b",
  "42T22b26X38b28W20b23U9b78L4b30L6X9bP66KX10bT2b25M7b10M6b53Mb14M3TW8b39P9b73M4QP2W10MP5Qb20P11b",
  "18Pb43PR3Y62b7QbQb4Qb15Qb11Q6b59P5b10P6bQ3Pb8P2b2P2b22Pb7Pb2Pb5PbT9P2b2P2b3P2bQ6bP5b7P2b7P3b5P",
  "11b10aba2bab38ab10aba2bab4ab10ab2a8b2a29b90RWRbRTU2W30b72P8b10P166b54P2b18P20Q34b69P11b10P6b",
  "13R19b56MUX6b10M6b20a28b26QT2b15Q4b16Q7X185b60T100b83P12bP7W2bW2b8Wb2Wb30Wb2W2b12W9b10W70b8U2b",
  "46U2b11U27b72S8b52S2U23ST5S13b16X57P7b10Y182b34a14b10a6b9Rb45Rb14R10b29R3b32R2b22Rb14R73b7Sb2S",
  "b44S3bSb2Sb9S8b10S6b6Tb2Tb37Tb2Tb6T7b10T310b25T7b17Yb41Y3b28Ya85bW15b50U13bU879I42PQ102b99I12P",
  "b4IP11b196Q2636b99X13b1071KY9U29Y10b3995a5b583Q6841b58a1734b569L7b31Pb10P4b2P79Xb10X6b30P2b6P",
  "10b70P10b10Pb7Pb21P5b19P432b58a198b91T101b69M6U4bU47M9U7b17M64bRS2UW11b2W14b6125R5T6U8b755R",
  "483W41ba9W8935b4Xb7Xb2Xb2L285S4X15bY29b3U2bY14b4U8b396S2308b107P5b13P3b9P7b10P2b8P3932b250a6b",
  "436a76b46X2b23X9b116X60b246E10b39E2bJ180E11Q2X21b70H122b20Y12b20T12b87G9b18I7T135b85Eb71Eb2E2b",
  "E2b2E2b4Eb12EbEb4EG2Eb65Eb4E2b8Eb7Eb28Eb4Eb5EbE3b7Eb338E2H2b290E2I2b50E652Q15b5Qb15Q1104b31X6b",
  "6Y213b7Rb17R2b7Rb2Rb5R5b62Y33bY112b45U3b14U2b10U4b2U320b31X17b58U5bU464b42Y214b43a4ba480b7Xb4X",
  "b2Xb15Xb197P2b16P41b75RU4b10R4b2R785b68T76b61U194b4Mb27Mb2MbM2bMb10Mb4MbMbM6bM4bMbMbMb3Mb2MbM",
  "2bMbMbMbMbMb2MbM2b4Mb7Mb4Mb4MbMb10Mb17M5b3Mb5Mb17M52b2M270b44J4b100J12b15L2b14LPb15Lb15L22P10b",
  "11K2P3W31KTLK11LKLK2LK3LK3L5K8LK7LK10L2MU3W9LKL2K2LK10L4K2LK10L18RW56b26LK2L13b34K9LR4b9K7b2L",
  "14b6S154b33L12P3Q6LP70LP2Q20L12P37LP5L4P5Q12P17L7P8Q63LPLP182LP4L2PQ62L2P4M7P5Q24L18PR41PR86P",
  "5LM16LM3LMLMLMLM3LM6L2M4LML2M4LM12L2P2Q11L48P70L10PQ2R2SU2W4bY3X13P3b4P3R2STU2W3b116L3Y4b5Y85P",
  "4TY6b12U4bX15b12P4b56P8b10P6b40P8b30P2b2W10a4b2a62b12SW3U9Q6RS8R8SR2S12RU12RS3T15R13S5TUW4T2WX",
  "TU4T5Q13R6S11T2W6U3W2U10T6UQ2T8UWX3U23S25T84U12b14T2b4UW3Y3U2X3b3U4W2Ya5ba6U19W4X3Y7W4X3YaY3W",
  "3Xa7b2Y7W3X2Ya2ba8XYa6b7X2Y7b147Wb55W37a10W1028b2B42711E7W2X32b4149K4XY6b222L2b5762Q14b7473S",
  "15b622Z2466b542E1504b2B4939W5b4192Y56398b2B65534b2B65534b2B65534b2B65534b2B65534b2B65534b2B",
  "65534b2B65534b2B65534b2B65534b2BbE30b96E128b240G65038b131074B"]

/-- The characters of a version and of those before it. The version is written with a point, or
with the letter `v` and without a point. -/
def ageSet? (name : String) : Option CharSet :=
  (versions.findIdx? fun version =>
    name == version || name == "v" ++ String.ofList (version.toList.filter (· != '.'))).map
      fun place => ageRuns.setWhere (· ≤ place)

end Bundler.Text.Unicode
