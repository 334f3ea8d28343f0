import Bundler.Text.Unicode.Runs

/-!
# Scripts

The script of every code point, and the characters that are used in the writing of several
scripts.
-/

namespace Bundler.Text.Unicode

/-- The names of the scripts, each with its short name, in the order of their numbers. -/
def scriptNameText : String :=
  String.join [
  "adlam=adlm ahom=ahom anatolianhieroglyphs=hluw arabic=arab armenian=armn avestan=avst ",
  "balinese=bali bamum=bamu bassavah=bass batak=batk bengali=beng bhaiksuki=bhks bopomofo=bopo ",
  "brahmi=brah braille=brai buginese=bugi buhid=buhd canadianaboriginal=cans carian=cari ",
  "caucasianalbanian=aghb chakma=cakm cham=cham cherokee=cher chorasmian=chrs common=zyyy ",
  "coptic=copt cuneiform=xsux cypriot=cprt cyprominoan=cpmn cyrillic=cyrl deseret=dsrt ",
  "devanagari=deva divesakuru=diak dogra=dogr duployan=dupl egyptianhieroglyphs=egyp ",
  "elbasan=elba elymaic=elym ethiopic=ethi garay=gara georgian=geor glagolitic=glag gothic=goth ",
  "grantha=gran greek=grek gujarati=gujr gunjalagondi=gong gurmukhi=guru gurungkhema=gukh ",
  "han=hani hangul=hang hanifirohingya=rohg hanunoo=hano hatran=hatr hebrew=hebr hiragana=hira ",
  "imperialaramaic=armi inherited=zinh inscriptionalpahlavi=phli inscriptionalparthian=prti ",
  "javanese=java kaithi=kthi kannada=knda katakana=kana kawi=kawi kayahli=kali kharoshthi=khar ",
  "khitansmallscript=kits khmer=khmr khojki=khoj khudawadi=sind kiratrai=krai lao=laoo ",
  "latin=latn lepcha=lepc limbu=limb lineara=lina linearb=linb lisu=lisu lycian=lyci lydian=lydi ",
  "mahajani=mahj makasar=maka malayalam=mlym mandaic=mand manichaean=mani marchen=marc ",
  "masaramgondi=gonm medefaidrin=medf meeteimayek=mtei mendekikakui=mend meroiticcursive=merc ",
  "meroitichieroglyphs=mero miao=plrd modi=modi mongolian=mong mro=mroo multani=mult ",
  "myanmar=mymr nabataean=nbat nagmundari=nagm nandinagari=nand newa=newa newtailue=talu ",
  "nko=nkoo nushu=nshu nyiakengpuachuehmong=hmnp ogham=ogam olchiki=olck oldhungarian=hung ",
  "olditalic=ital oldnortharabian=narb oldpermic=perm oldpersian=xpeo oldsogdian=sogo ",
  "oldsoutharabian=sarb oldturkic=orkh olduyghur=ougr olonal=onao oriya=orya osage=osge ",
  "osmanya=osma pahawhhmong=hmng palmyrene=palm paucinhau=pauc phagspa=phag phoenician=phnx ",
  "psalterpahlavi=phlp rejang=rjng runic=runr samaritan=samr saurashtra=saur sharada=shrd ",
  "shavian=shaw siddham=sidd signwriting=sgnw sinhala=sinh sogdian=sogd sorasompeng=sora ",
  "soyombo=soyo sundanese=sund sunuwar=sunu sylotinagri=sylo syriac=syrc tagalog=tglg ",
  "tagbanwa=tagb taile=tale taitham=lana taiviet=tavt takri=takr tamil=taml tangsa=tnsa ",
  "tangut=tang telugu=telu thaana=thaa thai=thai tibetan=tibt tifinagh=tfng tirhuta=tirh ",
  "todhri=todr toto=toto tulutigalari=tutg ugaritic=ugar vai=vaii vithkuqi=vith wancho=wcho ",
  "warangciti=wara yezidi=yezi yi=yiii zanabazarsquare=zanb"]

def wordsFrom : List Char → List Char → List (List Char)
  | seen, [] => [seen.reverse]
  | seen, c :: rest =>
      if c = ' ' then seen.reverse :: wordsFrom [] rest else wordsFrom (c :: seen) rest

def words (text : String) : List String := (wordsFrom [] text.toList).map String.ofList

def scriptNames : List (String × String) :=
  (wordsFrom [] scriptNameText.toList).map fun entry =>
    (String.ofList (entry.takeWhile (· != '=')),
      String.ofList ((entry.dropWhile (· != '=')).drop 1))

/-- A script by its number. -/
structure Script where
  number : Nat
deriving DecidableEq, Repr, Inhabited

namespace Script

/-- The script with a name, which is in lower case and without separators. -/
def ofName? (name : String) : Option Script :=
  let name := if name == "qaac" then "copt" else if name == "qaai" then "zinh" else name
  (scriptNames.findIdx? fun entry => entry.1 == name || entry.2 == name).map Script.mk

def shortName (script : Script) : String := (scriptNames.getD script.number ("", "")).2

/-- The runs of equal script; the last number stands for no script. -/
def runs : Runs :=
  Runs.readPairs 0 none #[] <| String.toList <| String.join [
  "65Ay26Cv6Ay26Cv47AyCv15AyCv5Ay23CvAy31CvAy449Cv39Ay5Cv5Ay2Am20Ay112Cf4BsAy3Bs2Go4BsAyBs4GoBsAy",
  "BsAy3BsGoBsGo20BsGo63Bs14Az16Bs133Bd2Cf169BdGo38Ae2Go50Ae2Go3AeGo55Cc8Go27Cc4Go6Cc11Go5AdAy6Ad",
  "Ay14AdAy3AdAy32AdAy10Ad11Cf26AdCf108AdAy34Ad14FnGo60Fn2Go3Fn48Ad50Fy14Go59Ea2Go3Ea46Fa2Go15Fa",
  "Go28Dg2GoDgGo11Fn5Go31AdGo2Ad5Go75AdAy29Ad81Bf4Cf15Bf2Ay26Bf4AkGo8Ak2Go2Ak2Go22AkGo7AkGoAk3Go",
  "4Ak2Go9Ak2Go2Ak2Go4Ak8GoAk4Go2AkGo5Ak2Go25Ak2Go3BvGo6Bv4Go2Bv2Go22BvGo7BvGo2BvGo2BvGo2Bv2GoBv",
  "Go5Bv4Go2Bv2Go3Bv3GoBv7Go4BvGoBv7Go17Bv10Go3BtGo9BtGo3BtGo22BtGo7BtGo2BtGo5Bt2Go10BtGo3BtGo3Bt",
  "2GoBt15Go4Bt2Go12Bt7Go7BtGo3EpGo8Ep2Go2Ep2Go22EpGo7EpGo2EpGo5Ep2Go9Ep2Go2Ep2Go3Ep7Go3Ep4Go2Ep",
  "Go5Ep2Go18Ep10Go2FuGo6Fu3Go3FuGo4Fu3Go2FuGoFuGo2Fu3Go2Fu3Go3Fu3Go12Fu4Go5Fu3Go3FuGo4Fu2GoFu6Go",
  "Fu14Go21Fu5Go13FxGo3FxGo23FxGo16Fx2Go9FxGo3FxGo4Fx7Go2FxGo3Fx2GoFx2Go4Fx2Go10Fx7Go9Fx13CkGo3Ck",
  "Go23CkGo10CkGo5Ck2Go9CkGo3CkGo4Ck7Go2Ck6Go2CkGo4Ck2Go10CkGo3Ck12Go13DfGo3DfGo51DfGo3DfGo6Df4Go",
  "16Df2Go26DfGo3FgGo18Fg3Go24FgGo9FgGoFg2Go7Fg3GoFg4Go6FgGoFgGo8Fg6Go10Fg2Go3Fg12Go58Fz4GoAy28Fz",
  "37Go2CuGoCuGo5CuGo24CuGoCuGo23Cu2Go5CuGoCuGo7CuGo10Cu2Go4Cu32Go72GaGo36Ga4Go39GaGo36GaGo15GaGo",
  "7Ga4Ay2Ga37Go160Du38BoGoBo5GoBo2Go43BoAy4Bo256By73BmGo4Bm2Go7BmGoBmGo4Bm2Go41BmGo4Bm2Go33BmGo",
  "4Bm2Go7BmGoBmGo4Bm2Go15BmGo57BmGo4Bm2Go67Bm2Go32Bm3Go26Bm6Go86Aw2Go6Aw2Go640Ar29Ed3Go75Ez3Ay",
  "11Ez7Go22Fo9GoFo21Ca2Ay9Go20Aq12Go13FpGo3FpGo2Fp12Go94Cq2Go10Cq6Go10Cq6Go2Dr2AyDrAy20Dr6Go89Dr",
  "7Go43Dr5Go70Ar10Go31CxGo12Cx4Go12Cx4GoCx3Go12Cx30Fq2Go5Fq11Go44Dz4Go26Dz6Go11Dz3Go2Dz32Cq28Ap",
  "2Go2Ap63FrGo29Fr2Go11Fr6Go10Fr6Go14Fr2Go31Cf49Go77AgGo50Ag64Fk52Aj8Go4Aj56Cw3Go15Cw3Go3Cw48Ee",
  "11Bd5Go43Bo2Go3Bo8Fk8Go3CfAy13CfAy7Cf4AyCf6AyCf3Ay2CfAy5Go38Cv5BsBd49Cv5Bs4Cv5Bs13CvBd70CvBs",
  "64Cf256Cv22Bs2Go6Bs2Go38Bs2Go6Bs2Go8BsGoBsGoBsGoBsGo31Bs2Go53BsGo15BsGo14Bs2Go6BsGo19Bs2Go3Bs",
  "Go9BsGo12Ay2Cf87AyGo11AyCv2Go11AyCv15AyGo13Cv3Go33Ay15Go33Cf15Go38AyBs3Ay2Cv6AyCv27AyCv17Ay",
  "41Cv3Ay4Go666Ay22Go11Ay21Go928Ay256Ao628Ay2Go32AyGo105Ay96Bp32Cv116Az5Go7Az38BoGoBo5GoBo2Go",
  "56Gb7Go2Gb14GoGb23Bm9Go7BmGo7BmGo7BmGo7BmGo7BmGo7BmGo7BmGo7BmGo32Bd94Ay34Go26BxGo89Bx12Go214Bx",
  "26Go21AyBxAyBx25Ay9Bx4Cf2By8Ay4Bx4AyGo86Cd2Go2Cf2Ay3CdAy90Cl2Ay3Cl5Go43AmGo94ByGo16Ay32Am38Ay",
  "9GoAy16Cl31ByGo64Ay31By81Ay47ClAy88Cl168Ay6592Bx64Ay20992Bx1165Gm3Go55Gm9Go48Da300Gh20Go96Bd",
  "88Ah8Go34Ay102Cv3Ay67Cv2Go2CvGoCvGo8Cv21Go14Cv45Fm3Go10Ay6Go56Ev8Go70Fb8Go12Fb6Go32Bf46CnAyCn",
  "36Ey11GoEy29By3Go78CiGoAy10Ci4Go2Ci31DuGo55Av9Go14Av2Go10Av2Go4Av32Du67Fs24Go5Fs23Dl10Go6Bm2Go",
  "6Bm2Go6Bm9Go7BmGo7BmGo43CvAy9CvBs4Cv2Ay4Go80Aw46Dl2Go10Dl6Go11172By12Go23By4Go49By8452Go366Bx",
  "2Go106Bx38Go7Cv12Go5Ae5Go26CcGo5CcGoCcGo2CcGo2CcGo10Cc115Ad16Go363Ad2Ay80Ad2Go54Ad7GoAd32Go",
  "16Ad16Cf10Ay6Go14Cf2Bd35AyGo19AyGo4Ay4Go5AdGo135Ad2GoAyGo32Ay26Cv6Ay26Cv11Ay10ClAy45Cl2Ay31By",
  "3Go6By2Go6By2Go6By2Go3By3Go7AyGo7Ay10Go5Ay2Go12CzGo26CzGo19CzGo2CzGo15Cz2Go14Cz34Go123Cz5Go3Ay",
  "4Go45Ay3Go9Ay79BsGo13Ay3GoBs47Go45AyCf130Go29Db3Go49As15GoCf27Ay4Go36Eg9Go3Eg27Bq5Go43Ei5Go",
  "30GgGoGg36Ej4Go14Ej42Go80Be48Fd30Er2Go10Er6Go36Eq4Go36Eq4Go40Bk8Go52At11GoAt11GiGo15GiGo7GiGo",
  "2GiGo11GiGo15GiGo7GiGo2Gi3Go52Gd12Go311Cy9Go22Cy10Go8Cy24Go6CvGo42CvGo9Cv69Go6Bb2GoBbGo44BbGo",
  "2Bb3GoBb2GoBb22CeGo9Ce32Et31Dv8Go9Dv48Go19CbGo2Cb5Go5Cb28Ew3GoEw26Dc5GoDc64Go32Do24Dn4Go20Dn",
  "2Go46Dn4CoGo2Co5Go8CoGo3CoGo29Co2Go3Co4Go10Co7Go9Co7Go32El32Eh32Go39Dh4Go12Dh9Go54Af3Go7Af22Ch",
  "2Go8Ch19Cg5Go8Cg18Ex7Go4Ex12Go7Ex80Go73Em55Go51Ef13Go51Ef7Go6Ef40Bz8Go10Bz6Go38Bn3Go29Bn8Go2Bn",
  "208Go31AdGo42GlGo3Gl2Go2Gl16Go3Ad55Go4Ad40Ek8Go42Fh22Go26En38Go28Ax20Go23Bl9Go78An4Go36An9GoAn",
  "67Cj10GoCj2Go25Fi7Go10Fi6Go53AuGo18Au8Go39Dd9Go96FcGo20Fg11Go18CrGo47Cr62Go7DtGoDtGo4DtGo15Dt",
  "Go11Dt6Go59Cs5Go10Cs6Go4BrGo8Br2Go2Br2Go22BrGo7BrGo2BrGo5BrGoCf9Br2Go2Br2Go3Br2GoBr6GoBr5Go7Br",
  "2Go7Br3Go5Br11Go10GfGoGf2GoGfGo38GfGo10GfGoGf2GoGfGo4GfGo10GfGo2Gf8Go2Gf29Go92DyGo5Dy30Go72Gc",
  "8Go10Gc166Go54Fe2Go38Fe34Go69Dq11Go10Dq6Go13Dr19Go58Ft6Go10Ft6Go20Du28Go27Ab2Go15Ab4Go23Ab",
  "185Go60Bh100Go83Gk12GoGk7Bg2GoBg2Go8BgGo2BgGo30BgGo2Bg2Go12Bg9Go10Bg70Go8Dx2Go46Dx2Go11Dx27Go",
  "72Gn8Go83Fj13Go16Ar57Eu7Go10Bf182Go34Fl14Go10Fl6Go9AlGo45AlGo14Al10Go29Al3Go32Di2Go22DiGo14Di",
  "73Go7DjGo2DjGo44Dj3GoDjGo2DjGo9Dj8Go10Dj6Go6BuGo2BuGo37BuGo2BuGo6Bu7Go10Bu310Go25De7Go17CmGo",
  "41Cm3Go29Cm85GoDa15Go50Fu13GoFu922Ba102Go111BaGo5Ba11Go196Ba2636Go99Bc13Go1110Bj10Go3995Bj5Go",
  "583Ac6841Go58Bw1734Go569Ah7Go31DsGo10Ds4Go2Ds79FvGo10Fv6Go30Ai2Go6Ai10Go70Es10Go10EsGo7EsGo",
  "21Es5Go19Es432Go58Ct198Go91Dk101Go75Dp4Go57Dp7Go17Dp64GoFwEb2BxCp11Go2Bx14Go6136Fw8Go768Fw",
  "470Cp41GoCp9Fw8935Go4ClGo7ClGo2ClGoCl287Cd3Cl15GoCd29Go3Cd2GoCl14Go4Cl8Go396Eb2308Go107Bi5Go",
  "13Bi3Go9Bi7Go10Bi2Go4Bi4Ay3932Go250Ay6Go436Ay76Go46Cf2Go23Cf9Go116Ay60Go246Ay10Go39Ay2Go62Ay",
  "3Cf17Ay8Cf2Ay7Cf30Ay4Cf61Ay21Go70Bs122Go20Ay12Go20Ay12Go87Ay9Go25Ay135Go85AyGo71AyGo2Ay2GoAy",
  "2Go2Ay2Go4AyGo12AyGoAyGo7AyGo65AyGo4Ay2Go8AyGo7AyGo28AyGo4AyGo5AyGoAy3Go7AyGo340Ay2Go292Ay2Go",
  "50Ay652Ff15Go5FfGo15Ff1104Go31Cv6Go6Cv213Go7BpGo17Bp2Go7BpGo2BpGo5Bp5Go62Bd33GoBd112Go45Ec3Go",
  "14Ec2Go10Ec4Go2Ec320Go31Ge17Go58Gj5GoGj464Go42Dw214Go43Eo4GoEo480Go7BmGo4BmGo2BmGo15BmGo197Dm",
  "2Go16Dm41Go76Aa4Go10Aa4Go2Aa785Go68Ay76Go61Ay194Go4AdGo27AdGo2AdGoAd2GoAdGo10AdGo4AdGoAdGoAd",
  "6GoAd4GoAdGoAdGoAdGo3AdGo2AdGoAd2GoAdGoAdGoAdGoAdGoAdGo2AdGoAd2Go4AdGo7AdGo4AdGo4AdGoAdGo10Ad",
  "Go17Ad5Go3AdGo5AdGo17Ad52Go2Ad270Go44Ay4Go100Ay12Go15Ay2Go15AyGo15AyGo37Ay10Go174Ay56Go26AyCd",
  "2Ay13Go44Ay4Go9Ay7Go2Ay14Go6Ay154Go984Ay4Go17Ay3Go13Ay3Go119Ay4Go95Ay6Go12Ay4GoAy15Go12Ay4Go",
  "56Ay8Go10Ay6Go40Ay8Go30Ay2Go12Ay4Go2Ay62Go340Ay12Go14Ay2Go13Ay3Go10Ay5Go56Ay7Go15Ay2Go11Ay6Go",
  "9Ay7Go147AyGo102Ay1030Go42720Bx32Go4154Bx6Go222Bx2Go5762Bx14Go7473Bx15Go622Bx2466Go542Bx1506Go",
  "4939Bx5Go4192Bx711761GoAy30Go96Ay128Go240Cf196112Go"]

def set (script : Script) : CharSet := runs.setWhere (· == script.number)

/-- Characters that are used in the writing of other scripts than their own, and the short names
of those scripts. -/
def extensions : List String := [
  "b7 = avst cari copt dupl elba geor glag gong goth grek hani latn lydi mahj perm shaw",
  "2bc = beng cyrl deva latn lisu thai toto",
  "2c7 2c9-2cb 2d9 = bopo latn",
  "2cd = latn lisu",
  "2d7 = latn thai",
  "300 = cher copt cyrl grek latn perm sunu tale",
  "301 = cher cyrl grek latn osge sunu tale todr",
  "302 = cher cyrl latn tfng",
  "303 = glag latn sunu syrc thai",
  "304 = aghb cher copt cyrl goth grek latn osge syrc tfng todr",
  "305 = copt elba glag goth kana latn",
  "306 = cyrl grek latn perm",
  "307 = copt dupl hebr latn perm syrc tale tfng todr",
  "308 = armn cyrl dupl goth grek hebr latn perm syrc tale",
  "309 = latn tfng",
  "30a = dupl latn syrc",
  "30b = cher cyrl latn osge",
  "30c = cher latn tale",
  "30d 310 = latn sunu",
  "30e = ethi latn",
  "311 = cyrl latn todr",
  "313 = grek latn perm todr",
  "320 325 32e = latn syrc",
  "323 = cher dupl kana latn syrc",
  "324 = cher dupl latn syrc",
  "32d = latn sunu syrc",
  "330 = cher latn syrc",
  "331 = aghb cher goth latn sunu thai",
  "342 345 1dc0-1dc1 = grek",
  "358 = latn osge",
  "35e = aghb latn todr",
  "363-36f = latn",
  "374-375 = copt grek",
  "483 = cyrl perm",
  "484 487 2e43 a66f = cyrl glag",
  "485-486 = cyrl latn",
  "589 = armn geor glag",
  "60c 61b = arab gara nkoo rohg syrc thaa yezi",
  "61c = arab syrc thaa",
  "61f = adlm arab gara nkoo rohg syrc thaa yezi",
  "640 = adlm arab mand mani ougr phlp rohg sogd syrc",
  "64b-655 670 = arab syrc",
  "660-669 = arab thaa yezi",
  "6d4 = arab rohg",
  "951 = beng deva gran gujr guru knda latn mlym orya shrd taml telu tirh",
  "952 = beng deva gran gujr guru knda latn mlym orya taml telu tirh",
  "964 = beng deva dogr gong gonm gran gujr guru knda mahj mlym nand orya sind sinh sylo takr " ++
    "taml telu tirh",
  "965 = beng deva dogr gong gonm gran gujr guru knda limb mahj mlym nand orya sind sinh sylo " ++
    "takr taml telu tirh",
  "966-96f = deva dogr kthi mahj",
  "9e6-9ef = beng cakm sylo",
  "a66-a6f = guru mult",
  "ae6-aef = gujr khoj",
  "be6-bf3 11301 11303 1133b-1133c 11fd0-11fd1 11fd3 = gran taml",
  "ce6-cef = knda nand",
  "1040-1049 = cakm mymr tale",
  "10fb = geor glag latn",
  "1735-1736 = buhd hano tagb tglg",
  "1802-1803 1805 = mong phag",
  "1cd0 1cd2 = beng deva gran knda",
  "1cd1 1cd4 1cdb 1cde-1cdf 1ce2-1ce8 1ceb-1cec 1cee-1cf1 = deva",
  "1cd3 1cf3 1cf8-1cf9 = deva gran",
  "1cd5-1cd6 1cd8 1ce1 1cea 1ced 1cf5-1cf6 a8f1 = beng deva",
  "1cd7 1cd9 1cdc-1cdd 1ce0 = deva shrd",
  "1cda = deva knda mlym orya taml telu",
  "1ce9 = deva nand",
  "1cf2 = beng deva gran knda nand orya telu tirh",
  "1cf4 = deva gran knda",
  "1cf7 = beng",
  "1cfa = nand",
  "1df8 = cyrl latn syrc",
  "1dfa = syrc",
  "202f = latn mong phag",
  "204f = adlm arab",
  "205a = cari geor glag hung lyci orkh",
  "205d = cari grek hung mero",
  "20f0 = deva gran latn",
  "2e17 = copt",
  "2e30 = avst orkh",
  "2e31 = avst cari geor hung kthi lydi samr",
  "2e3c 1bca0-1bca3 = dupl",
  "2e41 = adlm arab hung",
  "2ff0-2fff 31ef = hani tang",
  "3001 = bopo hang hani hira kana mong phag tibt yiii",
  "3002 = bopo hang hani hira kana mong phag yiii",
  "3003 3013 301c-301f 3030 3037 fe45-fe46 = bopo hang hani hira kana",
  "3006 303e-303f 3190-319f 31c0-31e5 3220-3247 3280-32b0 32c0-32cb 32ff 3358-3370 337b-337f " ++
    "33e0-33fe 1d360-1d371 1f250-1f251 = hani",
  "3008-3009 = bopo hang hani hira kana mong tibt yiii",
  "300a-300b = bopo hang hani hira kana lisu mong tibt yiii",
  "300c-3011 3014-301b 30fb ff61-ff65 = bopo hang hani hira kana yiii",
  "302a-302d = bopo hani",
  "3031-3035 3099-309c 30a0 30fc ff70 ff9e-ff9f = hira kana",
  "303c-303d = hani hira kana",
  "a700-a707 = hani latn",
  "a830-a832 = deva dogr gujr guru khoj knda kthi mahj mlym modi nand sind takr tirh",
  "a833-a835 = deva dogr gujr guru khoj knda kthi mahj modi nand sind takr tirh",
  "a836-a839 = deva dogr gujr guru khoj kthi mahj modi sind takr tirh",
  "a8f3 = deva taml",
  "a92e = kali latn mymr",
  "a9cf = bugi java",
  "fd3e-fd3f = arab nkoo",
  "fdf2 fdfd = arab thaa",
  "10100-10101 = cpmn cprt linb",
  "10102 10137-1013f = cprt linb",
  "10107-10133 = cprt lina linb",
  "102e0-102fb = arab copt",
  "10af2 = mani ougr"]

/-- The characters of an entry, and the scripts that they are used in. -/
def extension (entry : String) : CharSet × List String :=
  let parts := words entry
  (.unions ((parts.takeWhile (· != "=")).map .ofText), (parts.dropWhile (· != "=")).drop 1)

def extendedSet (script : Script) : CharSet :=
  let entries := extensions.map extension
  let users := entries.filter fun entry => entry.2.contains script.shortName
  (script.set.diff (.unions (entries.map Prod.fst))).union (.unions (users.map Prod.fst))

end Script

end Bundler.Text.Unicode
