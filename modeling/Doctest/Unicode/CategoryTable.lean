/-!
# The general categories of all code points

The table is run-length text. Each run is a number of code points, left out where it is one, and
the two letters of their general category; the runs follow each other from code point zero.
-/

namespace Doctest.Unicode

/-- The runs of the general category over all code points, in order. -/
def categoryRuns : List String := [
  "32CcZs3PoSc3PoPsPePoSmPoPd2Po10Nd2Po3Sm2Po26LuPsPoPeSkPcSk26LlPsSmPeSm33CcZsPo4ScSoPoSkSoLo",
  "PiSmCfSoSkSoSm2NoSkLl2PoSkNoLoPf3NoPo23LuSm7Lu24LlSm8LlLuLlLuLlLuLlLuLlLuLlLuLlLuLlLuLlLuLl",
  "LuLlLuLlLuLlLuLlLuLlLuLlLuLlLuLlLuLlLuLlLuLlLuLlLuLlLuLlLuLlLuLlLuLlLuLlLu2LlLuLlLuLlLuLlLu",
  "LlLuLlLuLlLuLlLu2LlLuLlLuLlLuLlLuLlLuLlLuLlLuLlLuLlLuLlLuLlLuLlLuLlLuLlLuLlLuLlLuLlLuLlLuLl",
  "LuLlLuLlLuLlLuLlLuLl2LuLlLuLlLu3Ll2LuLlLuLl2LuLl3Lu2Ll4LuLl2LuLl3Lu3Ll2LuLl2LuLlLuLlLuLl2Lu",
  "LlLu2LlLuLl2LuLl3LuLlLuLl2Lu2LlLoLu3Ll4LoLuLtLlLuLtLlLuLtLlLuLlLuLlLuLlLuLlLuLlLuLlLuLlLu2Ll",
  "LuLlLuLlLuLlLuLlLuLlLuLlLuLlLuLlLu2LlLuLtLlLuLl3LuLlLuLlLuLlLuLlLuLlLuLlLuLlLuLlLuLlLuLlLuLl",
  "LuLlLuLlLuLlLuLlLuLlLuLlLuLlLuLlLuLlLuLlLuLlLuLlLuLlLuLlLuLlLuLlLuLlLuLlLu7Ll2LuLl2Lu2LlLuLl",
  "4LuLlLuLlLuLlLuLlLu69LlLo27Ll18Lm4Sk12Lm14Sk5Lm7SkLmSkLm17Sk112MnLuLlLuLlLmSkLuLl2CnLm3LlPo",
  "Lu4Cn2SkLuPo3LuCnLuCn2LuLl17LuCn9Lu35LlLu2Ll3Lu3LlLuLlLuLlLuLlLuLlLuLlLuLlLuLlLuLlLuLlLuLlLu",
  "LlLu5LlLuLlSmLuLl2Lu2Ll51Lu48LlLuLlLuLlLuLlLuLlLuLlLuLlLuLlLuLlLuLlLuLlLuLlLuLlLuLlLuLlLuLl",
  "LuLlLuLlSo5Mn2MeLuLlLuLlLuLlLuLlLuLlLuLlLuLlLuLlLuLlLuLlLuLlLuLlLuLlLuLlLuLlLuLlLuLlLuLlLuLl",
  "LuLlLuLlLuLlLuLlLuLlLuLlLuLlLuLl2LuLlLuLlLuLlLuLlLuLlLuLlLu2LlLuLlLuLlLuLlLuLlLuLlLuLlLuLlLu",
  "LlLuLlLuLlLuLlLuLlLuLlLuLlLuLlLuLlLuLlLuLlLuLlLuLlLuLlLuLlLuLlLuLlLuLlLuLlLuLlLuLlLuLlLuLlLu",
  "LlLuLlLuLlLuLlLuLlLuLlLuLlLuLlLuLlLuLlLuLlLuLlLuLlLuLlLuLlLuLlLuLlLuLlCn38Lu2CnLm6Po41LlPoPd",
  "2Cn2SoScCn45MnPdMnPo2MnPo2MnPoMn8Cn27Lo4Cn4Lo2Po11Cn6Cf3Sm2PoSc2Po2So11MnPoCf3Po32LoLm10Lo",
  "21Mn10Nd4Po2LoMn99LoPoLo7MnCfSo6Mn2Lm2MnSo4Mn2Lo10Nd3Lo2SoLo14PoCnCfLoMn30Lo27Mn2Cn89Lo11Mn",
  "Lo14Cn10Nd33Lo9Mn2LmSo3PoLm2CnMn2Sc22Lo4MnLm9MnLm3MnLm5Mn2Cn15PoCn25Lo3Mn2CnPoCn11Lo5Cn24Lo",
  "Sk6LoCn2Cf6Cn8Mn41LoLm24MnCf32MnMc54LoMnMcMnLo3Mc8Mn4McMn2McLo7Mn10Lo2Mn2Po10NdPoLm15LoMn2Mc",
  "Cn8Lo2Cn2Lo2Cn22LoCn7LoCnLo3Cn4Lo2CnMnLo3Mc4Mn2Cn2Mc2Cn2McMnLo8CnMc4Cn2LoCn3Lo2Mn2Cn10Nd2Lo",
  "2Sc6NoSoScLoPoMn2Cn2MnMcCn6Lo4Cn2Lo2Cn22LoCn7LoCn2LoCn2LoCn2Lo2CnMnCn3Mc2Mn4Cn2Mn2Cn3Mn3CnMn",
  "7Cn4LoCnLo7Cn10Nd2Mn3LoMnPo10Cn2MnMcCn9LoCn3LoCn22LoCn7LoCn2LoCn5Lo2CnMnLo3Mc5MnCn2MnMcCn2Mc",
  "Mn2CnLo15Cn2Lo2Mn2Cn10NdPoSc7CnLo6MnCnMn2McCn8Lo2Cn2Lo2Cn22LoCn7LoCn2LoCn5Lo2CnMnLoMcMnMc4Mn",
  "2Cn2Mc2Cn2McMn7Cn2MnMc4Cn2LoCn3Lo2Mn2Cn10NdSoLo6No10CnMnLoCn6Lo3Cn3LoCn4Lo3Cn2LoCnLoCn2Lo3Cn",
  "2Lo3Cn3Lo3Cn12Lo4Cn2McMn2Mc3Cn3McCn3McMn2CnLo6CnMc14Cn10Nd3No6SoScSo5CnMn3McMn8LoCn3LoCn23Lo",
  "Cn16Lo2CnMnLo3Mn4McCn3MnCn4Mn7Cn2MnCn3Lo2CnLo2Cn2Lo2Mn2Cn10Nd7CnPo7NoSoLoMn2McPo8LoCn3LoCn",
  "23LoCn10LoCn5Lo2CnMnLoMcMn5McCnMn2McCn2Mc2Mn7Cn2Mc6Cn2LoCn2Lo2Mn2Cn10NdCn2LoMc12Cn2Mn2Mc9Lo",
  "Cn3LoCn41Lo2MnLo3Mc4MnCn3McCn3McMnLoSo4Cn3LoMc7No3Lo2Mn2Cn10Nd9NoSo6LoCnMn2McCn18Lo3Cn24LoCn",
  "9LoCnLo2Cn7Lo3CnMn4Cn3Mc3MnCnMnCn8Mc6Cn10Nd2Cn2McPo12Cn48LoMn2Lo7Mn4CnSc6LoLm8MnPo10Nd2Po",
  "37Cn2LoCnLoCn5LoCn24LoCnLoCn10LoMn2Lo9MnLo2Cn5LoCnLmCn7MnCn10Nd2Cn4Lo32CnLo3So15PoSoPo3So2Mn",
  "6So10Nd10NoSoMnSoMnSoMnPsPePsPe2Mc8LoCn36Lo4Cn14MnMc5MnPo2Mn5Lo11MnCn36MnCn8SoMn6SoCn2So5Po",
  "4So2Po37Cn43Lo2Mc4MnMc6MnMc2Mn2Mc2MnLo10Nd6Po6Lo2Mc2Mn4Lo3MnLo3Mc2Lo7Mc3Lo4Mn13LoMn2Mc2Mn6Mc",
  "MnLoMc10Nd3McMn2So38LuCnLu5CnLu2Cn43LlPoLm3Ll329LoCn4Lo2Cn7LoCnLoCn4Lo2Cn41LoCn4Lo2Cn33LoCn",
  "4Lo2Cn7LoCnLoCn4Lo2Cn15LoCn57LoCn4Lo2Cn67Lo2Cn3Mn9Po20No3Cn16Lo10So6Cn86Lu2Cn6Ll2CnPd620LoSo",
  "Po17LoZs26LoPsPe3Cn75Lo3Po3Nl8Lo7Cn18Lo3MnMc9Cn19Lo2MnMc2Po9Cn18Lo2Mn12Cn13LoCn3LoCn2Mn12Cn",
  "52Lo2MnMc7Mn8McMn2Mc11Mn3PoLm3PoScLoMn2Cn10Nd6Cn10No6Cn6PoPd4Po3MnCfMn10Nd6Cn35LoLm53Lo7Cn",
  "5Lo2Mn34LoMnLo5Cn70Lo10Cn31LoCn3Mn4Mc2Mn3Mc4Cn2McMn6Mc3Mn4CnSo3Cn2Po10Nd30Lo2Cn5Lo11Cn44Lo",
  "4Cn26Lo6Cn10NdNo3Cn34So23Lo2Mn2McMn2Cn2Po53LoMcMnMc7MnCnMnMcMn2Mc8Mn6Mc10Mn2CnMn10Nd6Cn10Nd",
  "6Cn7PoLm6Po2Cn14MnMe16Mn49Cn4MnMc47LoMnMc5MnMcMn5McMn2Mc8Lo3Cn10Nd7Po10So9Mn9So2PoCn2MnMc",
  "30LoMc4Mn2Mc2MnMc3Mn2Lo10Nd44LoMnMc2Mn3McMnMc3Mn2Mc8Cn4Po36Lo8Mc8Mn2Mc2Mn3Cn5Po10Nd3Cn3Lo",
  "10Nd30Lo6Lm2Po9Ll7Cn43Lu2Cn3Lu8Po8Cn3MnPo13MnMc7Mn4LoMn6LoMn2LoMc2MnLo5Cn44Ll63Lm13LlLm34Ll",
  "37Lm64MnLuLlLuLlLuLlLuLlLuLlLuLlLuLlLuLlLuLlLuLlLuLlLuLlLuLlLuLlLuLlLuLlLuLlLuLlLuLlLuLlLuLl",
  "LuLlLuLlLuLlLuLlLuLlLuLlLuLlLuLlLuLlLuLlLuLlLuLlLuLlLuLlLuLlLuLlLuLlLuLlLuLlLuLlLuLlLuLlLuLl",
  "LuLlLuLlLuLlLuLlLuLlLuLlLuLlLuLlLuLlLuLlLuLlLuLlLuLlLuLlLuLlLuLlLuLlLuLlLuLlLuLlLuLlLuLlLuLl",
  "LuLlLuLlLuLlLuLlLuLlLuLlLuLlLu9LlLuLlLuLlLuLlLuLlLuLlLuLlLuLlLuLlLuLlLuLlLuLlLuLlLuLlLuLlLu",
  "LlLuLlLuLlLuLlLuLlLuLlLuLlLuLlLuLlLuLlLuLlLuLlLuLlLuLlLuLlLuLlLuLlLuLlLuLlLuLlLuLlLuLlLuLlLu",
  "LlLuLlLuLlLuLlLuLlLuLlLuLlLuLlLuLlLuLlLuLlLu9Ll8Lu6Ll2Cn6Lu2Cn8Ll8Lu8Ll8Lu6Ll2Cn6Lu2Cn8LlCn",
  "LuCnLuCnLuCnLu8Ll8Lu14Ll2Cn8Ll8Lt8Ll8Lt8Ll8Lt5LlCn2Ll4LuLtSkLl3Sk3LlCn2Ll4LuLt3Sk4Ll2Cn2Ll",
  "4LuCn3Sk8Ll5Lu3Sk2Cn3LlCn2Ll4LuLt2SkCn11Zs5Cf6Pd2PoPiPfPs2PiPfPsPi8PoZlZp5CfZs9PoPiPf4Po2Pc",
  "3PoSmPsPe11PoSmPoPc10PoZs5CfCn10CfNoLm2Cn6No3SmPsPeLm10No3SmPsPeCn13Lm3Cn33Sc15Cn13Mn4MeMn",
  "3Me12Mn15Cn2SoLu4SoLu2SoLl3Lu2Ll3LuLlSoLu2SoSm5Lu6SoLuSoLuSoLuSo4LuSoLl4LuLl4LoLl2So2Ll2Lu",
  "5SmLu4LlSoSm2SoLlSo16No35NlLuLl4NlNo2So4Cn5Sm5So2Sm4SoSm2SoSm2SoSm7SoSm31So2Sm2SoSmSoSm31So",
  "268Sm8SoPsPePsPe20So2Sm7SoPsPe81SoSm30So25Sm40So6Sm69So25Cn11So21Cn60No78So22No183SoSm9SoSm",
  "54So8Sm111SoSm248SoPsPePsPePsPePsPePsPePsPePsPe30No44So5SmPsPe31SmPsPePsPePsPePsPePsPe16Sm",
  "256So131SmPsPePsPePsPePsPePsPePsPePsPePsPePsPePsPePsPe63SmPsPePsPe32SmPsPe258Sm48So21Sm2So",
  "6Sm39So2Cn32SoCn105So48Lu48LlLuLl3Lu2LlLuLlLuLlLuLl4LuLlLu2LlLu6Ll2Lm3LuLlLuLlLuLlLuLlLuLlLu",
  "LlLuLlLuLlLuLlLuLlLuLlLuLlLuLlLuLlLuLlLuLlLuLlLuLlLuLlLuLlLuLlLuLlLuLlLuLlLuLlLuLlLuLlLuLlLu",
  "LlLuLlLuLlLuLlLuLlLuLlLuLlLuLlLuLlLuLlLuLlLuLlLuLlLuLlLuLlLuLlLuLlLuLlLuLlLuLlLuLlLu2Ll6SoLu",
  "LlLuLl3MnLuLl5Cn4PoNo2Po38LlCnLl5CnLl2Cn56Lo7CnLmPo14CnMn23Lo9Cn7LoCn7LoCn7LoCn7LoCn7LoCn7Lo",
  "Cn7LoCn7LoCn32Mn2PoPiPfPiPf3PoPiPfPoPiPf9PoPd2PoPdPoPiPf2PoPiPfPsPePsPePsPePsPe5PoLm10Po2Pd",
  "4PoPdPoPs13Po2So3PoPsPePsPePsPePsPePd34Cn26SoCn89So12Cn214So26Cn16SoZs3PoSoLmLoNlPsPePsPePs",
  "PePsPePsPe2SoPsPePsPePsPePsPePdPs2PeSo9Nl4Mn2McPd5Lm2So3NlLmLoPo2SoCn86Lo2Cn2Mn2Sk2LmLoPd",
  "90LoPo3LmLo5Cn43LoCn94LoCn2So4No10So32Lo36So11CnSo16Lo31SoCn10No30So8NoSo15No32So10No39So",
  "15No320So6592Lo64So21013LoLm1143Lo3Cn55So9Cn40Lo6Lm2Po268LoLm3Po16Lo10Nd2Lo20CnLuLlLuLlLuLl",
  "LuLlLuLlLuLlLuLlLuLlLuLlLuLlLuLlLuLlLuLlLuLlLuLlLuLlLuLlLuLlLuLlLuLlLuLlLuLlLuLlLoMn3MePo",
  "10MnPoLmLuLlLuLlLuLlLuLlLuLlLuLlLuLlLuLlLuLlLuLlLuLlLuLlLuLlLuLl2Lm2Mn70Lo10Nl2Mn6Po8Cn23Sk",
  "9Lm2SkLuLlLuLlLuLlLuLlLuLlLuLlLu3LlLuLlLuLlLuLlLuLlLuLlLuLlLuLlLuLlLuLlLuLlLuLlLuLlLuLlLuLl",
  "LuLlLuLlLuLlLuLlLuLlLuLlLuLlLuLlLuLlLuLlLuLlLuLlLuLlLuLlLuLlLuLlLuLlLm8LlLuLlLuLl2LuLlLuLlLu",
  "LlLuLlLuLlLm2SkLuLlLuLlLoLuLlLu3LlLuLlLuLlLuLlLuLlLuLlLuLlLuLlLuLlLuLlLuLl5LuLl5LuLlLuLlLuLl",
  "LuLlLuLlLuLlLuLlLuLl4LuLlLuLl5CnLuLlCnLlCnLlLuLlLuLl24Cn3LmLuLlLo2LmLl7LoMn3LoMn4LoMn23Lo2Mc",
  "2MnMc4SoMn3Cn6No2SoScSo6Cn52Lo4Po8Cn2Mc50Lo16Mc2Mn8Cn2Po10Nd6Cn18Mn6Lo3PoLoPo2LoMn10Nd28Lo",
  "8Mn2Po23Lo11Mn2Mc11CnPo29Lo3Cn3MnMc47LoMn2Mc4Mn2Mc2Mn3Mc13PoCnLm10Nd4Cn2Po5LoMnLm9Lo10Nd5Lo",
  "Cn41Lo6Mn2Mc2Mn2Mc2Mn9Cn3LoMn8LoMnMc2Cn10Nd2Cn4Po16LoLm6Lo3SoLoMcMnMc50LoMnLo3Mn2Lo2Mn5Lo2Mn",
  "LoMnLo24Cn2LoLm2Po11LoMc2Mn2Mc2PoLo2LmMcMn10Cn6Lo2Cn6Lo2Cn6Lo9Cn7LoCn7LoCn43LlSk4Lm9LlLm2Sk",
  "4Cn80Ll35Lo2McMn2McMn2McPoMcMn2Cn10Nd6Cn11172Lo12Cn23Lo4Cn49Lo4Cn2048Cs6400Co366Lo2Cn106Lo",
  "38Cn7Ll12Cn5Ll5CnLoMn10LoSm13LoCn5LoCnLoCn2LoCn2LoCn108Lo17Sk16Cn363LoPePs16So64Lo2Cn54Lo7Cn",
  "So32Cn12LoSc3So16Mn7PoPsPePo6Cn16MnPo2Pd2PcPsPePsPePsPePsPePsPePsPePsPePsPe2PoPsPe4Po3Pc3Po",
  "Cn4PoPdPsPePsPePsPe3PoSmPd3SmCnPoSc2Po4Cn5LoCn135Lo2CnCfCn3PoSc3PoPsPePoSmPoPd2Po10Nd2Po3Sm",
  "2Po26LuPsPoPeSkPcSk26LlPsSmPeSmPsPePoPsPe2Po10LoLm45Lo2Lm31Lo3Cn6Lo2Cn6Lo2Cn6Lo2Cn3Lo3Cn2Sc",
  "SmSkSo2ScCnSo4Sm2So10Cn3Cf2So2Cn12LoCn26LoCn19LoCn2LoCn15Lo2Cn14Lo34Cn123Lo5Cn3Po4Cn45No3Cn",
  "9So53Nl4No17So2No3SoCn13So3CnSo47Cn45SoMn130Cn29Lo3Cn49Lo15CnMn27No4Cn32Lo4No9Cn20LoNl8LoNl",
  "5Cn38Lo5Mn5Cn30LoCnPo36Lo4Cn8LoPo5Nl42Cn40Lu40Ll78Lo2Cn10Nd6Cn36Lu4Cn36Ll4Cn40Lo8Cn52Lo11Cn",
  "Po11LuCn15LuCn7LuCn2LuCn11LlCn15LlCn7LlCn2Ll67Cn311Lo9Cn22Lo10Cn8Lo24Cn6LmCn42LmCn9Lm69Cn6Lo",
  "2CnLoCn44LoCn2Lo3CnLo2Cn23LoCnPo8No23Lo2So7No31Lo8Cn9No48Cn19LoCn2Lo5Cn5No22Lo6No3CnPo26Lo",
  "5CnPo64Cn56Lo4Cn2No2Lo16No2Cn46NoLo3MnCn2Mn5Cn4Mn4LoCn3LoCn29Lo2Cn3Mn4CnMn9No7Cn9Po7Cn29Lo",
  "2NoPo29Lo3No32Cn8LoSo28Lo2Mn4Cn5No7Po9Cn54Lo3Cn7Po22Lo2Cn8No19Lo5Cn8No18Lo7Cn4Po12Cn7No80Cn",
  "73Lo55Cn51Lu13Cn51Ll7Cn6No36Lo4Mn8Cn10Nd294Cn31NoCn42LoCn2MnPd2Cn2Lo75Cn3Mn29Lo10NoLo8Cn22Lo",
  "11Mn4No5Po22Cn18Lo4Mn4Po38Cn21Lo7No20Cn23Lo9CnMcMnMc53Lo15Mn7Po4Cn20No10NdMn2Lo2MnLo9Cn3MnMc",
  "45Lo3Mc4Mn2Mc2Mn2PoCf4PoMn10CnCf2Cn25Lo7Cn10Nd6Cn3Mn36Lo5MnMc8MnCn10Nd4PoLo2McLo8Cn35LoMn2Po",
  "Lo9Cn2MnMc48Lo3Mc9Mn2Mc4Lo4Po4MnPoMcMn10NdLoPoLo3PoCn20No11Cn18LoCn25Lo3Mc3Mn2McMnMc2Mn6PoMn",
  "2LoMn62Cn7LoCnLoCn4LoCn15LoCn10LoPo6Cn47LoMn3Mc8Mn5Cn10Nd6Cn2Mn2McCn8Lo2Cn2Lo2Cn22LoCn7LoCn",
  "2LoCn5LoCn2MnLo2McMn4Mc2Cn2Mc2Cn3Mc2CnLo6CnMc5Cn5Lo2Mc2Cn7Mn3Cn5Mn139Cn53Lo3Mc8Mn2Mc3MnMcMn",
  "4Lo5Po10Nd2PoCnPoMn3Lo30Cn48Lo3Mc6MnMcMn4Mc2MnMc2Mn2LoPoLo8Cn10Nd166Cn47Lo3Mc4Mn2Cn4Mc2MnMc",
  "2Mn23Po4Lo2Mn34Cn48Lo3Mc8Mn2McMnMc2Mn3PoLo11Cn10Nd6Cn13Po19Cn43LoMnMcMn2Mc6MnMcMnLoPo6Cn10Nd",
  "54Cn27Lo2Cn3Mn2Mc4MnMc5Mn4Cn10Nd2No3PoSo7Lo185Cn44Lo3Mc9MnMc2MnPo100Cn32Lu32Ll10Nd9No12Cn8Lo",
  "2CnLo2Cn8LoCn2LoCn24Lo6McCn2Mc2Cn2MnMcMnLoMcLoMcMn3Po9Cn10Nd70Cn8Lo2Cn39Lo3Mc4Mn2Cn2Mn4McMn",
  "LoPoLoMc27CnLo10Mn40Lo6MnMcLo4Mn8PoMn8CnLo6Mn2Mc3Mn46Lo13MnMc2Mn3PoLo5Po13Cn73Lo7Cn10Po246Cn",
  "9LoCn37LoMc7MnCn6MnMcMnLo5Po10Cn10Nd19No3Cn2Po30Lo2Cn22MnCnMc7MnMc2MnMc2Mn73Cn7LoCn2LoCn38Lo",
  "6Mn3CnMnCn2MnCn7MnLoMn8Cn10Nd6Cn6LoCn2LoCn32Lo5McCn2MnCn2McMnMcMnLo7Cn10Nd310Cn19Lo2Mn2Mc2Po",
  "7Cn2MnLoMc13LoCn34Lo2Mc5Mn3Cn2McMnMcMn13Po10Nd86CnLo15Cn21No8So4Sc17So13CnPo922Lo102Cn111Nl",
  "Cn5Po11Cn196Lo2636Cn97Lo2Po13Cn1072Lo16CfMn6Lo15Mn4010Cn583Lo8633Cn569Lo7Cn31LoCn10Nd4Cn2Po",
  "79LoCn10Nd6Cn30Lo2Cn5MnPo10Cn48Lo7Mn5Po4So4LmPoSo10Cn10NdCn7NoCn21Lo5Cn19Lo688Cn32Lu32Ll23No",
  "4Po101Cn75Lo4CnMnLo55Mc7Cn4Mn13Lm64Cn2LmPoLmMn11Cn2Mc14Cn6136Lo8Cn1238Lo42Cn9Lo8935Cn4LmCn",
  "7LmCn2LmCn291Lo15CnLo29Cn3Lo2CnLo14Cn4Lo8Cn396Lo2308Cn107Lo5Cn13Lo3Cn9Lo7Cn10Lo2CnSo2MnPo4Cf",
  "4700Cn46Mn2Cn23Mn9Cn116So60Cn246So10Cn39So2Cn60So2Mc3Mn3So6Mc8Cf8Mn2So7Mn30So4Mn61So21Cn66So",
  "3MnSo122Cn20No12Cn20No12Cn87So9Cn25No135Cn26Lu26Ll26Lu7LlCn18Ll26Lu26LlLuCn2Lu2CnLu2Cn2Lu2Cn",
  "4LuCn8Lu4LlCnLlCn7LlCn11Ll26Lu26Ll2LuCn4Lu2Cn8LuCn7LuCn26Ll2LuCn4LuCn5LuCnLu3Cn7LuCn26Ll26Lu",
  "26Ll26Lu26Ll26Lu26Ll26Lu26Ll26Lu26Ll26Lu28Ll2Cn25LuSm25LlSm6Ll25LuSm25LlSm6Ll25LuSm25LlSm6Ll",
  "25LuSm25LlSm6Ll25LuSm25LlSm6LlLuLl2Cn50Nd512So55Mn4So50Mn8SoMn14SoMn2So5Po15Cn5MnCn15Mn",
  "1104Cn10LlLo20Ll6Cn6Ll213Cn7MnCn17Mn2Cn7MnCn2MnCn5Mn5Cn62Lm33CnMn112Cn45Lo3Cn7Mn7Lm2Cn10Nd",
  "4CnLoSo320Cn30LoMn17Cn44Lo4Mn10Nd5CnSc464Cn27LoLm4Mn10Nd742Cn7LoCn4LoCn2LoCn15LoCn197Lo2Cn",
  "9No7Mn41Cn34Lu34Ll7MnLm4Cn10Nd4Cn2Po785Cn59NoSo3NoSc4No76Cn45NoSo15No194Cn4LoCn27LoCn2LoCnLo",
  "2CnLoCn10LoCn4LoCnLoCnLo6CnLo4CnLoCnLoCnLoCn3LoCn2LoCnLo2CnLoCnLoCnLoCnLoCnLoCn2LoCnLo2Cn4Lo",
  "Cn7LoCn4LoCn4LoCnLoCn10LoCn17Lo5Cn3LoCn5LoCn17Lo52Cn2Sm270Cn44So4Cn100So12Cn15So2Cn15SoCn",
  "15SoCn37So10Cn13No161So56Cn29So13Cn44So4Cn9So7Cn2So14Cn6So154Cn251So5Sk728So4Cn17So3Cn13So",
  "3Cn119So4Cn95So6Cn12So4CnSo15Cn12So4Cn56So8Cn10So6Cn40So8Cn30So2Cn2So78Cn340So12Cn14So2Cn",
  "13So3Cn9So7Cn46SoCn7So8Cn14So4Cn9So7Cn9So7Cn147SoCn55So37Cn10Nd1030Cn42720Lo32Cn4154Lo6Cn",
  "222Lo2Cn5762Lo14Cn7473Lo15Cn622Lo2466Cn542Lo1506Cn4939Lo5Cn4192Lo711761CnCf30Cn96Cf128Cn",
  "240Mn65040Cn65534Co2Cn65534Co2Cn"]

end Doctest.Unicode
