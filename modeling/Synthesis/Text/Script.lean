import Synthesis.Text.CodeTable

/-!
Scripts of Unicode 17. The table lists the runs of code points of one script, each by the name of
its script, without underscores, and its first code point; a run without a name belongs to no
script.
-/
namespace Synthesis.Text.Script

def readRun? (cs : List Char) : Option (Nat × String) :=
  (cutAt ':' cs).map fun (name, start) => (Decimal.natOfHex start, String.ofList name)

def tableText : List String := [
  "Common:0 Latin:41 Common:5B Latin:61 Common:7B Latin:AA Common:AB Latin:BA Common:BB Latin:C0",
  "Common:D7 Latin:D8 Common:F7 Latin:F8 Common:2B9 Latin:2E0 Common:2E5 Bopomofo:2EA Common:2EC",
  "Inherited:300 Greek:370 Common:374 Greek:375 :378 Greek:37A Common:37E Greek:37F :380 Greek:384",
  "Common:385 Greek:386 Common:387 Greek:388 :38B Greek:38C :38D Greek:38E :3A2 Greek:3A3",
  "Coptic:3E2 Greek:3F0 Cyrillic:400 Inherited:485 Cyrillic:487 :530 Armenian:531 :557",
  "Armenian:559 :58B Armenian:58D :590 Hebrew:591 :5C8 Hebrew:5D0 :5EB Hebrew:5EF :5F5 Arabic:600",
  "Common:605 Arabic:606 Common:60C Arabic:60D Common:61B Arabic:61C Common:61F Arabic:620",
  "Common:640 Arabic:641 Inherited:64B Arabic:656 Inherited:670 Arabic:671 Common:6DD Arabic:6DE",
  "Syriac:700 :70E Syriac:70F :74B Syriac:74D Arabic:750 Thaana:780 :7B2 Nko:7C0 :7FB Nko:7FD",
  "Samaritan:800 :82E Samaritan:830 :83F Mandaic:840 :85C Mandaic:85E :85F Syriac:860 :86B",
  "Arabic:870 :892 Arabic:897 Common:8E2 Arabic:8E3 Devanagari:900 Inherited:951 Devanagari:955",
  "Common:964 Devanagari:966 Bengali:980 :984 Bengali:985 :98D Bengali:98F :991 Bengali:993 :9A9",
  "Bengali:9AA :9B1 Bengali:9B2 :9B3 Bengali:9B6 :9BA Bengali:9BC :9C5 Bengali:9C7 :9C9",
  "Bengali:9CB :9CF Bengali:9D7 :9D8 Bengali:9DC :9DE Bengali:9DF :9E4 Bengali:9E6 :9FF",
  "Gurmukhi:A01 :A04 Gurmukhi:A05 :A0B Gurmukhi:A0F :A11 Gurmukhi:A13 :A29 Gurmukhi:A2A :A31",
  "Gurmukhi:A32 :A34 Gurmukhi:A35 :A37 Gurmukhi:A38 :A3A Gurmukhi:A3C :A3D Gurmukhi:A3E :A43",
  "Gurmukhi:A47 :A49 Gurmukhi:A4B :A4E Gurmukhi:A51 :A52 Gurmukhi:A59 :A5D Gurmukhi:A5E :A5F",
  "Gurmukhi:A66 :A77 Gujarati:A81 :A84 Gujarati:A85 :A8E Gujarati:A8F :A92 Gujarati:A93 :AA9",
  "Gujarati:AAA :AB1 Gujarati:AB2 :AB4 Gujarati:AB5 :ABA Gujarati:ABC :AC6 Gujarati:AC7 :ACA",
  "Gujarati:ACB :ACE Gujarati:AD0 :AD1 Gujarati:AE0 :AE4 Gujarati:AE6 :AF2 Gujarati:AF9 :B00",
  "Oriya:B01 :B04 Oriya:B05 :B0D Oriya:B0F :B11 Oriya:B13 :B29 Oriya:B2A :B31 Oriya:B32 :B34",
  "Oriya:B35 :B3A Oriya:B3C :B45 Oriya:B47 :B49 Oriya:B4B :B4E Oriya:B55 :B58 Oriya:B5C :B5E",
  "Oriya:B5F :B64 Oriya:B66 :B78 Tamil:B82 :B84 Tamil:B85 :B8B Tamil:B8E :B91 Tamil:B92 :B96",
  "Tamil:B99 :B9B Tamil:B9C :B9D Tamil:B9E :BA0 Tamil:BA3 :BA5 Tamil:BA8 :BAB Tamil:BAE :BBA",
  "Tamil:BBE :BC3 Tamil:BC6 :BC9 Tamil:BCA :BCE Tamil:BD0 :BD1 Tamil:BD7 :BD8 Tamil:BE6 :BFB",
  "Telugu:C00 :C0D Telugu:C0E :C11 Telugu:C12 :C29 Telugu:C2A :C3A Telugu:C3C :C45 Telugu:C46 :C49",
  "Telugu:C4A :C4E Telugu:C55 :C57 Telugu:C58 :C5B Telugu:C5C :C5E Telugu:C60 :C64 Telugu:C66 :C70",
  "Telugu:C77 Kannada:C80 :C8D Kannada:C8E :C91 Kannada:C92 :CA9 Kannada:CAA :CB4 Kannada:CB5 :CBA",
  "Kannada:CBC :CC5 Kannada:CC6 :CC9 Kannada:CCA :CCE Kannada:CD5 :CD7 Kannada:CDC :CDF",
  "Kannada:CE0 :CE4 Kannada:CE6 :CF0 Kannada:CF1 :CF4 Malayalam:D00 :D0D Malayalam:D0E :D11",
  "Malayalam:D12 :D45 Malayalam:D46 :D49 Malayalam:D4A :D50 Malayalam:D54 :D64 Malayalam:D66 :D80",
  "Sinhala:D81 :D84 Sinhala:D85 :D97 Sinhala:D9A :DB2 Sinhala:DB3 :DBC Sinhala:DBD :DBE",
  "Sinhala:DC0 :DC7 Sinhala:DCA :DCB Sinhala:DCF :DD5 Sinhala:DD6 :DD7 Sinhala:DD8 :DE0",
  "Sinhala:DE6 :DF0 Sinhala:DF2 :DF5 Thai:E01 :E3B Common:E3F Thai:E40 :E5C Lao:E81 :E83 Lao:E84",
  ":E85 Lao:E86 :E8B Lao:E8C :EA4 Lao:EA5 :EA6 Lao:EA7 :EBE Lao:EC0 :EC5 Lao:EC6 :EC7 Lao:EC8 :ECF",
  "Lao:ED0 :EDA Lao:EDC :EE0 Tibetan:F00 :F48 Tibetan:F49 :F6D Tibetan:F71 :F98 Tibetan:F99 :FBD",
  "Tibetan:FBE :FCD Tibetan:FCE Common:FD5 Tibetan:FD9 :FDB Myanmar:1000 Georgian:10A0 :10C6",
  "Georgian:10C7 :10C8 Georgian:10CD :10CE Georgian:10D0 Common:10FB Georgian:10FC Hangul:1100",
  "Ethiopic:1200 :1249 Ethiopic:124A :124E Ethiopic:1250 :1257 Ethiopic:1258 :1259 Ethiopic:125A",
  ":125E Ethiopic:1260 :1289 Ethiopic:128A :128E Ethiopic:1290 :12B1 Ethiopic:12B2 :12B6",
  "Ethiopic:12B8 :12BF Ethiopic:12C0 :12C1 Ethiopic:12C2 :12C6 Ethiopic:12C8 :12D7 Ethiopic:12D8",
  ":1311 Ethiopic:1312 :1316 Ethiopic:1318 :135B Ethiopic:135D :137D Ethiopic:1380 :139A",
  "Cherokee:13A0 :13F6 Cherokee:13F8 :13FE CanadianAboriginal:1400 Ogham:1680 :169D Runic:16A0",
  "Common:16EB Runic:16EE :16F9 Tagalog:1700 :1716 Tagalog:171F Hanunoo:1720 Common:1735 :1737",
  "Buhid:1740 :1754 Tagbanwa:1760 :176D Tagbanwa:176E :1771 Tagbanwa:1772 :1774 Khmer:1780 :17DE",
  "Khmer:17E0 :17EA Khmer:17F0 :17FA Mongolian:1800 Common:1802 Mongolian:1804 Common:1805",
  "Mongolian:1806 :181A Mongolian:1820 :1879 Mongolian:1880 :18AB CanadianAboriginal:18B0 :18F6",
  "Limbu:1900 :191F Limbu:1920 :192C Limbu:1930 :193C Limbu:1940 :1941 Limbu:1944 TaiLe:1950 :196E",
  "TaiLe:1970 :1975 NewTaiLue:1980 :19AC NewTaiLue:19B0 :19CA NewTaiLue:19D0 :19DB NewTaiLue:19DE",
  "Khmer:19E0 Buginese:1A00 :1A1C Buginese:1A1E TaiTham:1A20 :1A5F TaiTham:1A60 :1A7D TaiTham:1A7F",
  ":1A8A TaiTham:1A90 :1A9A TaiTham:1AA0 :1AAE Inherited:1AB0 :1ADE Inherited:1AE0 :1AEC",
  "Balinese:1B00 :1B4D Balinese:1B4E Sundanese:1B80 Batak:1BC0 :1BF4 Batak:1BFC Lepcha:1C00 :1C38",
  "Lepcha:1C3B :1C4A Lepcha:1C4D OlChiki:1C50 Cyrillic:1C80 :1C8B Georgian:1C90 :1CBB",
  "Georgian:1CBD Sundanese:1CC0 :1CC8 Inherited:1CD0 Common:1CD3 Inherited:1CD4 Common:1CE1",
  "Inherited:1CE2 Common:1CE9 Inherited:1CED Common:1CEE Inherited:1CF4 Common:1CF5 Inherited:1CF8",
  "Common:1CFA :1CFB Latin:1D00 Greek:1D26 Cyrillic:1D2B Latin:1D2C Greek:1D5D Latin:1D62",
  "Greek:1D66 Latin:1D6B Cyrillic:1D78 Latin:1D79 Greek:1DBF Inherited:1DC0 Latin:1E00 Greek:1F00",
  ":1F16 Greek:1F18 :1F1E Greek:1F20 :1F46 Greek:1F48 :1F4E Greek:1F50 :1F58 Greek:1F59 :1F5A",
  "Greek:1F5B :1F5C Greek:1F5D :1F5E Greek:1F5F :1F7E Greek:1F80 :1FB5 Greek:1FB6 :1FC5 Greek:1FC6",
  ":1FD4 Greek:1FD6 :1FDC Greek:1FDD :1FF0 Greek:1FF2 :1FF5 Greek:1FF6 :1FFF Common:2000",
  "Inherited:200C Common:200E :2065 Common:2066 Latin:2071 :2072 Common:2074 Latin:207F",
  "Common:2080 :208F Latin:2090 :209D Common:20A0 :20C2 Inherited:20D0 :20F1 Common:2100",
  "Greek:2126 Common:2127 Latin:212A Common:212C Latin:2132 Common:2133 Latin:214E Common:214F",
  "Latin:2160 Common:2189 :218C Common:2190 :242A Common:2440 :244B Common:2460 Braille:2800",
  "Common:2900 :2B74 Common:2B76 Glagolitic:2C00 Latin:2C60 Coptic:2C80 :2CF4 Coptic:2CF9",
  "Georgian:2D00 :2D26 Georgian:2D27 :2D28 Georgian:2D2D :2D2E Tifinagh:2D30 :2D68 Tifinagh:2D6F",
  ":2D71 Tifinagh:2D7F Ethiopic:2D80 :2D97 Ethiopic:2DA0 :2DA7 Ethiopic:2DA8 :2DAF Ethiopic:2DB0",
  ":2DB7 Ethiopic:2DB8 :2DBF Ethiopic:2DC0 :2DC7 Ethiopic:2DC8 :2DCF Ethiopic:2DD0 :2DD7",
  "Ethiopic:2DD8 :2DDF Cyrillic:2DE0 Common:2E00 :2E5E Han:2E80 :2E9A Han:2E9B :2EF4 Han:2F00",
  ":2FD6 Common:2FF0 Han:3005 Common:3006 Han:3007 Common:3008 Han:3021 Inherited:302A Hangul:302E",
  "Common:3030 Han:3038 Common:303C :3040 Hiragana:3041 :3097 Inherited:3099 Common:309B",
  "Hiragana:309D Common:30A0 Katakana:30A1 Common:30FB Katakana:30FD :3100 Bopomofo:3105 :3130",
  "Hangul:3131 :318F Common:3190 Bopomofo:31A0 Common:31C0 :31E6 Common:31EF Katakana:31F0",
  "Hangul:3200 :321F Common:3220 Hangul:3260 Common:327F Katakana:32D0 Common:32FF Katakana:3300",
  "Common:3358 Han:3400 Common:4DC0 Han:4E00 Yi:A000 :A48D Yi:A490 :A4C7 Lisu:A4D0 Vai:A500 :A62C",
  "Cyrillic:A640 Bamum:A6A0 :A6F8 Common:A700 Latin:A722 Common:A788 Latin:A78B :A7DD Latin:A7F1",
  "SylotiNagri:A800 :A82D Common:A830 :A83A PhagsPa:A840 :A878 Saurashtra:A880 :A8C6",
  "Saurashtra:A8CE :A8DA Devanagari:A8E0 KayahLi:A900 Common:A92E KayahLi:A92F Rejang:A930 :A954",
  "Rejang:A95F Hangul:A960 :A97D Javanese:A980 :A9CE Common:A9CF Javanese:A9D0 :A9DA Javanese:A9DE",
  "Myanmar:A9E0 :A9FF Cham:AA00 :AA37 Cham:AA40 :AA4E Cham:AA50 :AA5A Cham:AA5C Myanmar:AA60",
  "TaiViet:AA80 :AAC3 TaiViet:AADB MeeteiMayek:AAE0 :AAF7 Ethiopic:AB01 :AB07 Ethiopic:AB09 :AB0F",
  "Ethiopic:AB11 :AB17 Ethiopic:AB20 :AB27 Ethiopic:AB28 :AB2F Latin:AB30 Common:AB5B Latin:AB5C",
  "Greek:AB65 Latin:AB66 Common:AB6A :AB6C Cherokee:AB70 MeeteiMayek:ABC0 :ABEE MeeteiMayek:ABF0",
  ":ABFA Hangul:AC00 :D7A4 Hangul:D7B0 :D7C7 Hangul:D7CB :D7FC Han:F900 :FA6E Han:FA70 :FADA",
  "Latin:FB00 :FB07 Armenian:FB13 :FB18 Hebrew:FB1D :FB37 Hebrew:FB38 :FB3D Hebrew:FB3E :FB3F",
  "Hebrew:FB40 :FB42 Hebrew:FB43 :FB45 Hebrew:FB46 Arabic:FB50 Common:FD3E Arabic:FD40 :FDD0",
  "Arabic:FDF0 Inherited:FE00 Common:FE10 :FE1A Inherited:FE20 Cyrillic:FE2E Common:FE30 :FE53",
  "Common:FE54 :FE67 Common:FE68 :FE6C Arabic:FE70 :FE75 Arabic:FE76 :FEFD Common:FEFF :FF00",
  "Common:FF01 Latin:FF21 Common:FF3B Latin:FF41 Common:FF5B Katakana:FF66 Common:FF70",
  "Katakana:FF71 Common:FF9E Hangul:FFA0 :FFBF Hangul:FFC2 :FFC8 Hangul:FFCA :FFD0 Hangul:FFD2",
  ":FFD8 Hangul:FFDA :FFDD Common:FFE0 :FFE7 Common:FFE8 :FFEF Common:FFF9 :FFFE LinearB:10000",
  ":1000C LinearB:1000D :10027 LinearB:10028 :1003B LinearB:1003C :1003E LinearB:1003F :1004E",
  "LinearB:10050 :1005E LinearB:10080 :100FB Common:10100 :10103 Common:10107 :10134 Common:10137",
  "Greek:10140 :1018F Common:10190 :1019D Greek:101A0 :101A1 Common:101D0 Inherited:101FD :101FE",
  "Lycian:10280 :1029D Carian:102A0 :102D1 Inherited:102E0 Common:102E1 :102FC OldItalic:10300",
  ":10324 OldItalic:1032D Gothic:10330 :1034B OldPermic:10350 :1037B Ugaritic:10380 :1039E",
  "Ugaritic:1039F OldPersian:103A0 :103C4 OldPersian:103C8 :103D6 Deseret:10400 Shavian:10450",
  "Osmanya:10480 :1049E Osmanya:104A0 :104AA Osage:104B0 :104D4 Osage:104D8 :104FC Elbasan:10500",
  ":10528 CaucasianAlbanian:10530 :10564 CaucasianAlbanian:1056F Vithkuqi:10570 :1057B",
  "Vithkuqi:1057C :1058B Vithkuqi:1058C :10593 Vithkuqi:10594 :10596 Vithkuqi:10597 :105A2",
  "Vithkuqi:105A3 :105B2 Vithkuqi:105B3 :105BA Vithkuqi:105BB :105BD Todhri:105C0 :105F4",
  "LinearA:10600 :10737 LinearA:10740 :10756 LinearA:10760 :10768 Latin:10780 :10786 Latin:10787",
  ":107B1 Latin:107B2 :107BB Cypriot:10800 :10806 Cypriot:10808 :10809 Cypriot:1080A :10836",
  "Cypriot:10837 :10839 Cypriot:1083C :1083D Cypriot:1083F ImperialAramaic:10840 :10856",
  "ImperialAramaic:10857 Palmyrene:10860 Nabataean:10880 :1089F Nabataean:108A7 :108B0",
  "Hatran:108E0 :108F3 Hatran:108F4 :108F6 Hatran:108FB Phoenician:10900 :1091C Phoenician:1091F",
  "Lydian:10920 :1093A Lydian:1093F Sidetic:10940 :1095A MeroiticHieroglyphs:10980",
  "MeroiticCursive:109A0 :109B8 MeroiticCursive:109BC :109D0 MeroiticCursive:109D2",
  "Kharoshthi:10A00 :10A04 Kharoshthi:10A05 :10A07 Kharoshthi:10A0C :10A14 Kharoshthi:10A15 :10A18",
  "Kharoshthi:10A19 :10A36 Kharoshthi:10A38 :10A3B Kharoshthi:10A3F :10A49 Kharoshthi:10A50 :10A59",
  "OldSouthArabian:10A60 OldNorthArabian:10A80 :10AA0 Manichaean:10AC0 :10AE7 Manichaean:10AEB",
  ":10AF7 Avestan:10B00 :10B36 Avestan:10B39 InscriptionalParthian:10B40 :10B56",
  "InscriptionalParthian:10B58 InscriptionalPahlavi:10B60 :10B73 InscriptionalPahlavi:10B78",
  "PsalterPahlavi:10B80 :10B92 PsalterPahlavi:10B99 :10B9D PsalterPahlavi:10BA9 :10BB0",
  "OldTurkic:10C00 :10C49 OldHungarian:10C80 :10CB3 OldHungarian:10CC0 :10CF3 OldHungarian:10CFA",
  "HanifiRohingya:10D00 :10D28 HanifiRohingya:10D30 :10D3A Garay:10D40 :10D66 Garay:10D69 :10D86",
  "Garay:10D8E :10D90 Arabic:10E60 :10E7F Yezidi:10E80 :10EAA Yezidi:10EAB :10EAE Yezidi:10EB0",
  ":10EB2 Arabic:10EC2 :10EC8 Arabic:10ED0 :10ED9 Arabic:10EFA OldSogdian:10F00 :10F28",
  "Sogdian:10F30 :10F5A OldUyghur:10F70 :10F8A Chorasmian:10FB0 :10FCC Elymaic:10FE0 :10FF7",
  "Brahmi:11000 :1104E Brahmi:11052 :11076 Brahmi:1107F Kaithi:11080 :110C3 Kaithi:110CD :110CE",
  "SoraSompeng:110D0 :110E9 SoraSompeng:110F0 :110FA Chakma:11100 :11135 Chakma:11136 :11148",
  "Mahajani:11150 :11177 Sharada:11180 :111E0 Sinhala:111E1 :111F5 Khojki:11200 :11212",
  "Khojki:11213 :11242 Multani:11280 :11287 Multani:11288 :11289 Multani:1128A :1128E",
  "Multani:1128F :1129E Multani:1129F :112AA Khudawadi:112B0 :112EB Khudawadi:112F0 :112FA",
  "Grantha:11300 :11304 Grantha:11305 :1130D Grantha:1130F :11311 Grantha:11313 :11329",
  "Grantha:1132A :11331 Grantha:11332 :11334 Grantha:11335 :1133A Inherited:1133B Grantha:1133C",
  ":11345 Grantha:11347 :11349 Grantha:1134B :1134E Grantha:11350 :11351 Grantha:11357 :11358",
  "Grantha:1135D :11364 Grantha:11366 :1136D Grantha:11370 :11375 TuluTigalari:11380 :1138A",
  "TuluTigalari:1138B :1138C TuluTigalari:1138E :1138F TuluTigalari:11390 :113B6",
  "TuluTigalari:113B7 :113C1 TuluTigalari:113C2 :113C3 TuluTigalari:113C5 :113C6",
  "TuluTigalari:113C7 :113CB TuluTigalari:113CC :113D6 TuluTigalari:113D7 :113D9",
  "TuluTigalari:113E1 :113E3 Newa:11400 :1145C Newa:1145D :11462 Tirhuta:11480 :114C8",
  "Tirhuta:114D0 :114DA Siddham:11580 :115B6 Siddham:115B8 :115DE Modi:11600 :11645 Modi:11650",
  ":1165A Mongolian:11660 :1166D Takri:11680 :116BA Takri:116C0 :116CA Myanmar:116D0 :116E4",
  "Ahom:11700 :1171B Ahom:1171D :1172C Ahom:11730 :11747 Dogra:11800 :1183C WarangCiti:118A0",
  ":118F3 WarangCiti:118FF DivesAkuru:11900 :11907 DivesAkuru:11909 :1190A DivesAkuru:1190C :11914",
  "DivesAkuru:11915 :11917 DivesAkuru:11918 :11936 DivesAkuru:11937 :11939 DivesAkuru:1193B :11947",
  "DivesAkuru:11950 :1195A Nandinagari:119A0 :119A8 Nandinagari:119AA :119D8 Nandinagari:119DA",
  ":119E5 ZanabazarSquare:11A00 :11A48 Soyombo:11A50 :11AA3 CanadianAboriginal:11AB0",
  "PauCinHau:11AC0 :11AF9 Devanagari:11B00 :11B0A Sharada:11B60 :11B68 Sunuwar:11BC0 :11BE2",
  "Sunuwar:11BF0 :11BFA Bhaiksuki:11C00 :11C09 Bhaiksuki:11C0A :11C37 Bhaiksuki:11C38 :11C46",
  "Bhaiksuki:11C50 :11C6D Marchen:11C70 :11C90 Marchen:11C92 :11CA8 Marchen:11CA9 :11CB7",
  "MasaramGondi:11D00 :11D07 MasaramGondi:11D08 :11D0A MasaramGondi:11D0B :11D37",
  "MasaramGondi:11D3A :11D3B MasaramGondi:11D3C :11D3E MasaramGondi:11D3F :11D48",
  "MasaramGondi:11D50 :11D5A GunjalaGondi:11D60 :11D66 GunjalaGondi:11D67 :11D69",
  "GunjalaGondi:11D6A :11D8F GunjalaGondi:11D90 :11D92 GunjalaGondi:11D93 :11D99",
  "GunjalaGondi:11DA0 :11DAA TolongSiki:11DB0 :11DDC TolongSiki:11DE0 :11DEA Makasar:11EE0 :11EF9",
  "Kawi:11F00 :11F11 Kawi:11F12 :11F3B Kawi:11F3E :11F5B Lisu:11FB0 :11FB1 Tamil:11FC0 :11FF2",
  "Tamil:11FFF Cuneiform:12000 :1239A Cuneiform:12400 :1246F Cuneiform:12470 :12475",
  "Cuneiform:12480 :12544 CyproMinoan:12F90 :12FF3 EgyptianHieroglyphs:13000 :13456",
  "EgyptianHieroglyphs:13460 :143FB AnatolianHieroglyphs:14400 :14647 GurungKhema:16100 :1613A",
  "Bamum:16800 :16A39 Mro:16A40 :16A5F Mro:16A60 :16A6A Mro:16A6E Tangsa:16A70 :16ABF Tangsa:16AC0",
  ":16ACA BassaVah:16AD0 :16AEE BassaVah:16AF0 :16AF6 PahawhHmong:16B00 :16B46 PahawhHmong:16B50",
  ":16B5A PahawhHmong:16B5B :16B62 PahawhHmong:16B63 :16B78 PahawhHmong:16B7D :16B90",
  "KiratRai:16D40 :16D7A Medefaidrin:16E40 :16E9B BeriaErfe:16EA0 :16EB9 BeriaErfe:16EBB :16ED4",
  "Miao:16F00 :16F4B Miao:16F4F :16F88 Miao:16F8F :16FA0 Tangut:16FE0 Nushu:16FE1 Han:16FE2",
  "KhitanSmallScript:16FE4 :16FE5 Han:16FF0 :16FF7 Tangut:17000 KhitanSmallScript:18B00 :18CD6",
  "KhitanSmallScript:18CFF Tangut:18D00 :18D1F Tangut:18D80 :18DF3 Katakana:1AFF0 :1AFF4",
  "Katakana:1AFF5 :1AFFC Katakana:1AFFD :1AFFF Katakana:1B000 Hiragana:1B001 Katakana:1B120 :1B123",
  "Hiragana:1B132 :1B133 Hiragana:1B150 :1B153 Katakana:1B155 :1B156 Katakana:1B164 :1B168",
  "Nushu:1B170 :1B2FC Duployan:1BC00 :1BC6B Duployan:1BC70 :1BC7D Duployan:1BC80 :1BC89",
  "Duployan:1BC90 :1BC9A Duployan:1BC9C Common:1BCA0 :1BCA4 Common:1CC00 :1CCFD Common:1CD00",
  ":1CEB4 Common:1CEBA :1CED1 Common:1CEE0 :1CEF1 Inherited:1CF00 :1CF2E Inherited:1CF30 :1CF47",
  "Common:1CF50 :1CFC4 Common:1D000 :1D0F6 Common:1D100 :1D127 Common:1D129 Inherited:1D167",
  "Common:1D16A Inherited:1D17B Common:1D183 Inherited:1D185 Common:1D18C Inherited:1D1AA",
  "Common:1D1AE :1D1EB Greek:1D200 :1D246 Common:1D2C0 :1D2D4 Common:1D2E0 :1D2F4 Common:1D300",
  ":1D357 Common:1D360 :1D379 Common:1D400 :1D455 Common:1D456 :1D49D Common:1D49E :1D4A0",
  "Common:1D4A2 :1D4A3 Common:1D4A5 :1D4A7 Common:1D4A9 :1D4AD Common:1D4AE :1D4BA Common:1D4BB",
  ":1D4BC Common:1D4BD :1D4C4 Common:1D4C5 :1D506 Common:1D507 :1D50B Common:1D50D :1D515",
  "Common:1D516 :1D51D Common:1D51E :1D53A Common:1D53B :1D53F Common:1D540 :1D545 Common:1D546",
  ":1D547 Common:1D54A :1D551 Common:1D552 :1D6A6 Common:1D6A8 :1D7CC Common:1D7CE",
  "SignWriting:1D800 :1DA8C SignWriting:1DA9B :1DAA0 SignWriting:1DAA1 :1DAB0 Latin:1DF00 :1DF1F",
  "Latin:1DF25 :1DF2B Glagolitic:1E000 :1E007 Glagolitic:1E008 :1E019 Glagolitic:1E01B :1E022",
  "Glagolitic:1E023 :1E025 Glagolitic:1E026 :1E02B Cyrillic:1E030 :1E06E Cyrillic:1E08F :1E090",
  "NyiakengPuachueHmong:1E100 :1E12D NyiakengPuachueHmong:1E130 :1E13E NyiakengPuachueHmong:1E140",
  ":1E14A NyiakengPuachueHmong:1E14E :1E150 Toto:1E290 :1E2AF Wancho:1E2C0 :1E2FA Wancho:1E2FF",
  ":1E300 NagMundari:1E4D0 :1E4FA OlOnal:1E5D0 :1E5FB OlOnal:1E5FF :1E600 TaiYo:1E6C0 :1E6DF",
  "TaiYo:1E6E0 :1E6F6 TaiYo:1E6FE :1E700 Ethiopic:1E7E0 :1E7E7 Ethiopic:1E7E8 :1E7EC",
  "Ethiopic:1E7ED :1E7EF Ethiopic:1E7F0 :1E7FF MendeKikakui:1E800 :1E8C5 MendeKikakui:1E8C7 :1E8D7",
  "Adlam:1E900 :1E94C Adlam:1E950 :1E95A Adlam:1E95E :1E960 Common:1EC71 :1ECB5 Common:1ED01",
  ":1ED3E Arabic:1EE00 :1EE04 Arabic:1EE05 :1EE20 Arabic:1EE21 :1EE23 Arabic:1EE24 :1EE25",
  "Arabic:1EE27 :1EE28 Arabic:1EE29 :1EE33 Arabic:1EE34 :1EE38 Arabic:1EE39 :1EE3A Arabic:1EE3B",
  ":1EE3C Arabic:1EE42 :1EE43 Arabic:1EE47 :1EE48 Arabic:1EE49 :1EE4A Arabic:1EE4B :1EE4C",
  "Arabic:1EE4D :1EE50 Arabic:1EE51 :1EE53 Arabic:1EE54 :1EE55 Arabic:1EE57 :1EE58 Arabic:1EE59",
  ":1EE5A Arabic:1EE5B :1EE5C Arabic:1EE5D :1EE5E Arabic:1EE5F :1EE60 Arabic:1EE61 :1EE63",
  "Arabic:1EE64 :1EE65 Arabic:1EE67 :1EE6B Arabic:1EE6C :1EE73 Arabic:1EE74 :1EE78 Arabic:1EE79",
  ":1EE7D Arabic:1EE7E :1EE7F Arabic:1EE80 :1EE8A Arabic:1EE8B :1EE9C Arabic:1EEA1 :1EEA4",
  "Arabic:1EEA5 :1EEAA Arabic:1EEAB :1EEBC Arabic:1EEF0 :1EEF2 Common:1F000 :1F02C Common:1F030",
  ":1F094 Common:1F0A0 :1F0AF Common:1F0B1 :1F0C0 Common:1F0C1 :1F0D0 Common:1F0D1 :1F0F6",
  "Common:1F100 :1F1AE Common:1F1E6 Hiragana:1F200 Common:1F201 :1F203 Common:1F210 :1F23C",
  "Common:1F240 :1F249 Common:1F250 :1F252 Common:1F260 :1F266 Common:1F300 :1F6D9 Common:1F6DC",
  ":1F6ED Common:1F6F0 :1F6FD Common:1F700 :1F7DA Common:1F7E0 :1F7EC Common:1F7F0 :1F7F1",
  "Common:1F800 :1F80C Common:1F810 :1F848 Common:1F850 :1F85A Common:1F860 :1F888 Common:1F890",
  ":1F8AE Common:1F8B0 :1F8BC Common:1F8C0 :1F8C2 Common:1F8D0 :1F8D9 Common:1F900 :1FA58",
  "Common:1FA60 :1FA6E Common:1FA70 :1FA7D Common:1FA80 :1FA8B Common:1FA8E :1FAC7 Common:1FAC8",
  ":1FAC9 Common:1FACD :1FADD Common:1FADF :1FAEB Common:1FAEF :1FAF9 Common:1FB00 :1FB93",
  "Common:1FB94 :1FBFB Han:20000 :2A6E0 Han:2A700 :2B81E Han:2B820 :2CEAE Han:2CEB0 :2EBE1",
  "Han:2EBF0 :2EE5E Han:2F800 :2FA1E Han:30000 :3134B Han:31350 :3347A Common:E0001 :E0002",
  "Common:E0020 :E0080 Inherited:E0100 :E01F0"]

def table : CodeTable String := .ofText readRun? tableText

/-- The name of the script of a code point; empty when it has none. -/
def ofCode (n : Nat) : String := (table.find? n).getD ""

def isScript (name : String) : Bool := name != "" && table.runs.any fun (_, s) => s == name

end Synthesis.Text.Script
