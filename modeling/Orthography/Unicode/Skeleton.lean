/-
The skeleton of a text: its letters without accents and without typographic dress.

Each character gives the characters it is composed of, compatibility forms included, and the
combining marks among them are dropped: `é` gives `e`, `ﬁ` gives `fi`, `Ａ` gives `A`. Two words
with one skeleton differ in accents alone. Hangul syllables are computed, the rest is tabled.
-/
import Orthography.Text.Basic
import Orthography.Unicode.Runs

set_option autoImplicit false

namespace Orthography.Unicode

/-! ## The tables -/

/-- The combining marks and what else has an empty skeleton, as runs that start at U+0000. -/
def markRuns : Runs := [
  (768, 79), (1, 32), (275, 5), (265, 45), (1, 1), (1, 2), (1, 2), (1, 1), (72, 11), (48, 21),
  (16, 1), (101, 7), (2, 6), (2, 2), (1, 4), (35, 1), (30, 27), (160, 9), (9, 1), (24, 4),
  (1, 9), (1, 3), (1, 5), (43, 3), (60, 8), (42, 24), (1, 29), (60, 1), (16, 1), (3, 4),
  (103, 1), (16, 1), (48, 1), (61, 1), (16, 1), (110, 1), (16, 1), (110, 1), (16, 1), (127, 1),
  (110, 1), (16, 1), (7, 2), (101, 1), (16, 1), (109, 2), (16, 1), (124, 1), (109, 3), (13, 4),
  (108, 3), (13, 4), (76, 2), (27, 1), (1, 1), (1, 1), (55, 5), (4, 4), (2, 5), (1, 2), (62, 1),
  (112, 1), (1, 2), (82, 1), (719, 3), (948, 2), (30, 1), (157, 1), (10, 1), (203, 1), (143, 3),
  (219, 2), (71, 1), (20, 8), (2, 1), (48, 14), (1, 16), (101, 1), (15, 1), (38, 9), (54, 2),
  (58, 1), (11, 2), (67, 1), (152, 3), (1, 13), (1, 7), (4, 1), (6, 1), (3, 2), (198, 64),
  (720, 13), (4, 1), (3, 12), (3070, 3), (141, 1), (96, 32), (554, 6), (105, 2), (30164, 1),
  (4, 10), (32, 2), (80, 2), (276, 1), (37, 1), (151, 1), (27, 18), (57, 3), (37, 1), (95, 1),
  (12, 1), (239, 1), (1, 3), (2, 2), (5, 2), (1, 1), (52, 1), (246, 1), (20272, 1), (769, 16),
  (366, 2), (605, 1), (226, 1), (149, 5), (1682, 1), (1, 1), (40, 3), (4, 1), (165, 2), (573, 4),
  (387, 2), (153, 11), (49, 4), (192, 1), (41, 1), (14, 1), (57, 2), (69, 3), (48, 2), (62, 1),
  (76, 1), (9, 1), (106, 2), (178, 2), (80, 2), (16, 1), (24, 7), (3, 5), (205, 1), (3, 1),
  (23, 1), (99, 2), (251, 2), (126, 1), (118, 2), (115, 1), (269, 2), (258, 2), (4, 1), (156, 1),
  (83, 1), (18, 1), (81, 1), (421, 1), (258, 1), (1, 2), (81, 1), (19800, 5), (59, 7), (1209, 2),
  (19628, 1), (5318, 5), (3, 6), (8, 8), (2, 7), (30, 4), (148, 3), (3515, 7), (1, 17), (2, 7),
  (1, 2), (1, 5), (261, 7), (375, 1), (61, 4), (1504, 7), (109, 7)]

/-- Characters whose skeleton is one character: a first code point, and the skeletons of the
characters from there on. -/
def singleSkeletons : List (Nat × String) := [
  (160, " "), (168, " ©a"), (175, " °±23 μ¶· 1o"),
  (192, "AAAAAAÆCEEEEIIIIÐNOOOOO×ØUUUUYÞßaaaaaaæceeeeiiiiðnooooo÷øuuuuyþyAaAaAa"),
  (262, "CcCcCcCcDdĐđEeEeEeEeEeGgGgGgGgHhĦħIiIiIiIiI"), (308, "JjKkĸLlLlLl"), (323, "NnNnNn"),
  (332, "OoOoOoŒœRrRrRrSsSsSsSsTtTtŦŧUuUuUuUuUuUuWwYyYZzZzZzs"), (416, "Oo"), (431, "Uu"),
  (461, "AaIiOoUuUuUuUuUuǝAaAaÆæǤǥGgKkOoOoƷʒj"),
  (500, "GgǶǷNnAaÆæØøAaAaEeEeIiIiOoOoRrRrUuUuSsTtȜȝHh"), (550, "AaEeOoOoOoOoYy"),
  (688, "hɦjrɹɻʁwy"), (728, "      ˞˟ɣlsxʕ"), (884, "ʹ"), (890, " ͻͼͽ;"), (900, "  Α·ΕΗΙ"),
  (908, "Ο"), (910, "ΥΩι"), (938, "ΙΥαεηιυ"), (970, "ιυουωϏβθΥΥΥφπ"), (1008, "κρςϳΘε϶ϷϸΣ"),
  (1024, "ЕЕЂГЄЅІІ"), (1036, "КИУ"), (1049, "И"), (1081, "и"), (1104, "ееђгєѕіі"), (1116, "киу"),
  (1142, "Ѵѵ"), (1217, "Жж"), (1232, "АаАаӔӕЕеӘәӘәЖжЗзӠӡИиИиОоӨөӨөЭэУуУуУуЧчӶӷЫы"),
  (1570, "ااواي"), (1728, "ەہہ"), (1747, "ے"), (2345, "न"), (2353, "रलळळ"), (2392, "कखगजडढफय"),
  (2524, "ডঢ"), (2527, "য"), (2611, "ਲ"), (2614, "ਸ"), (2649, "ਖਗਜ"), (2654, "ਫ"), (2908, "ଡଢ"),
  (3144, "ె"), (3546, "ෙ"), (3852, "་"), (3958, "ྲྲླླ"), (4348, "ნ"),
  (7468, "AÆBᴯDEƎGHIJKLMNᴻOȢPRTUWaɐɑᴂbdeəɛɜgᵎkmŋoɔᴖᴗptuᴝɯvᴥβγδφχiruvβγρφχ"), (7544, "н"),
  (7579, "ɒcɕðɜfɟɡɥɨɩɪᵻʝɭᶅʟɱɰɲɳɴɵɸʂʃƫʉʊᴜʋʌzʐʑʒθ"),
  (7680, "AaBbBbBbCcDdDdDdDdDdEeEeEeEeEeFfGgHhHhHhHhHhIiIiKkKkKkLlLlLlLlMmMmMmNn"),
  (7750, "NnNnNnOoOoOoOoPpPpRrRrRrRrSsSsSsSsSsTtTtTtTtUuUuUuUuUuVvVvWwWwWwWwWwXx"),
  (7820, "XxYyZzZzZzhtwy"), (7835, "s"),
  (7840, "AaAaAaAaAaAaAaAaAaAaAaAaEeEeEeEeEeEeEeEeIiIiOoOoOoOoOoOoOoOoOoOoOoOoUu"),
  (7910, "UuUuUuUuUuUuYyYyYyYy"), (7936, "ααααααααΑΑΑΑΑΑΑΑεεεεεε"), (7960, "ΕΕΕΕΕΕ"),
  (7968, "ηηηηηηηηΗΗΗΗΗΗΗΗιιιιιιιιΙΙΙΙΙΙΙΙοοοοοο"), (8008, "ΟΟΟΟΟΟ"), (8016, "υυυυυυυυ"),
  (8025, "Υ"), (8027, "Υ"), (8029, "Υ"), (8031, "ΥωωωωωωωωΩΩΩΩΩΩΩΩααεεηηιιοουυωω"),
  (8064, "ααααααααΑΑΑΑΑΑΑΑηηηηηηηηΗΗΗΗΗΗΗΗωωωωωωωωΩΩΩΩΩΩΩΩααααα"), (8118, "ααΑΑΑΑΑ ι   ηηη"),
  (8134, "ηηΕΕΗΗΗ   ιιιι"), (8150, "ιιΙΙΙΙ"), (8157, "   υυυυρρυυΥΥΥΥΡ  `"), (8178, "ωωω"),
  (8182, "ωωΟΟΩΩΩ  "), (8192, "           "), (8209, "‐"), (8215, " "), (8228, "."), (8239, " "),
  (8254, " "), (8287, " "), (8304, "0i"), (8308, "456789+−=()n0123456789+−=()"),
  (8336, "aeoxəhklmnpst"), (8450, "C"), (8455, "Ɛ"), (8458, "gHHHhħIILl℔N"), (8473, "PQRRR"),
  (8484, "Z℥Ω℧Z℩KABC℮eEFℲMoאבגדi"), (8508, "πγΓΠ∑"), (8517, "Ddeij"), (8544, "I"), (8548, "V"),
  (8553, "X"), (8556, "LCDMi"), (8564, "v"), (8569, "x"), (8572, "lcdm"), (8602, "←→"),
  (8622, "↔"), (8653, "⇐⇔⇒"), (8708, "∃"), (8713, "∈∊∋∋"), (8740, "∣∥∥"), (8769, "∼≂≃≃≅≆≅≈≈"),
  (8800, "=≡≡"), (8813, "≍<>≤≥≲≳≲≳≶≷≶≷"), (8832, "≺≻⊂⊃⊂⊃⊆⊇⊆⊇"), (8876, "⊢⊨⊩⊫"), (8928, "≼≽⊑⊒"),
  (8938, "⊲⊳⊴⊵"), (9001, "〈〉"), (9312, "123456789"),
  (9398, "ABCDEFGHIJKLMNOPQRSTUVWXYZabcdefghijklmnopqrstuvwxyz0"), (10972, "⫝"), (11388, "jV"),
  (11631, "ⵡ"), (11935, "母"), (12019, "龟"),
  (12032, "一丨丶丿乙亅二亠人儿入八冂冖冫几凵刀力勹匕匚匸十卜卩厂厶又口囗土士夂夊夕大女子宀寸小尢尸屮山巛工己巾干幺广廴廾弋弓彐彡彳心戈戶手支攴文斗斤方"),
  (12102, "无日曰月木欠止歹殳毋比毛氏气水火爪父爻爿片牙牛犬玄玉瓜瓦甘生用田疋疒癶白皮皿目矛矢石示禸禾穴立竹米糸缶网羊羽老而耒耳聿肉臣自至臼舌舛舟艮色艸"),
  (12172, "虍虫血行衣襾見角言谷豆豕豸貝赤走足身車辛辰辵邑酉釆里金長門阜隶隹雨靑非面革韋韭音頁風飛食首香馬骨高髟鬥鬯鬲鬼魚鳥鹵鹿麥麻黃黍黑黹黽鼎鼓鼠鼻齊"),
  (12242, "齒龍龜龠"), (12288, " "), (12342, "〒〷十卄卅"), (12364, "かききくくけけここささししすすせせそそたたちちっつつててとと"),
  (12400, "ははひひひふふふへへへほほほ"), (12436, "う"), (12443, "  ゝゝ"),
  (12460, "カキキククケケココササシシススセセソソタタチチッツツテテトト"), (12496, "ハハヒヒヒフフフヘヘヘホホホ"), (12532, "ウヵヶワヰヱヲ・ーヽヽ"),
  (12593, "ᄀᄁᆪᄂᆬᆭᄃᄄᄅᆰᆱᆲᆳᆴᆵᄚᄆᄇᄈᄡᄉᄊᄋᄌᄍᄎᄏᄐᄑ하ᅢᅣᅤᅥᅦᅧᅨᅩᅪᅫᅬᅭᅮᅯᅰᅱᅲᅳᅴᅵᅠᄔᄕᇇᇈᇌᇎᇓᇗᇙᄜᇝᇟᄝᄞᄠᄢᄣᄧ"),
  (12663, "ᄩᄫᄬᄭᄮᄯᄲᄶᅀᅇᅌᇱᇲᅗᅘᅙᆄᆅᆈᆑᆒᆔᆞᆡ"), (12690, "一二三四上中下甲乙丙丁天地人"), (12868, "問幼文箏"),
  (12896, "ᄀᄂᄃᄅᄆᄇᄉᄋᄌᄎᄏᄐᄑᄒ"), (12928, "一二三四五六七八九十月火水木金土日株有社名特財祝労秘男女適優印注項休写正上中下左右医宗学監企資協夜"),
  (13008, "アイウエオカキクケコサシスセソタチツテトナニヌネノハヒフヘホマミムメモヤユヨラリルレロワヰヱヲ"), (42652, "ъь"), (42864, "ꝯ"),
  (42994, "CFQꟵꟶꟷĦœ"), (43868, "ꜧꬷɫꭒ"), (43881, "ʍ"),
  (63744, "豈更車賈滑串句龜龜契金喇奈懶癩羅蘿螺裸邏樂洛烙珞落酪駱亂卵欄爛蘭鸞嵐濫藍襤拉臘蠟廊朗浪狼郎來冷勞擄櫓爐盧老蘆虜路露魯鷺碌祿綠菉錄鹿論壟弄籠聾"),
  (63814, "牢磊賂雷壘屢樓淚漏累縷陋勒肋凜凌稜綾菱陵讀拏樂諾丹寧怒率異北磻便復不泌數索參塞省葉說殺辰沈拾若掠略亮兩凉梁糧良諒量勵呂女廬旅濾礪閭驪麗黎力曆"),
  (63884, "歷轢年憐戀撚漣煉璉秊練聯輦蓮連鍊列劣咽烈裂說廉念捻殮簾獵令囹寧嶺怜玲瑩羚聆鈴零靈領例禮醴隸惡了僚寮尿料樂燎療蓼遼龍暈阮劉杻柳流溜琉留硫紐類六"),
  (63954, "戮陸倫崙淪輪律慄栗率隆利吏履易李梨泥理痢罹裏裡里離匿溺吝燐璘藺隣鱗麟林淋臨立笠粒狀炙識什茶刺切度拓糖宅洞暴輻行降見廓兀嗀﨎﨏塚﨑晴﨓﨔凞猪益"),
  (64024, "礼神祥福靖精羽﨟蘒﨡諸﨣﨤逸都﨧﨨﨩飯飼館鶴郞隷侮僧免勉勤卑喝嘆器塀墨層屮悔慨憎懲敏既暑梅海渚漢煮爫琢碑社祉祈祐祖祝禍禎穀突節練縉繁署者臭艹"),
  (64094, "艹著褐視謁謹賓贈辶逸難響頻恵𤋮舘"),
  (64112, "並况全侀充冀勇勺喝啕喙嗢塚墳奄奔婢嬨廒廙彩徭惘慎愈憎慠懲戴揄搜摒敖晴朗望杖歹殺流滛滋漢瀞煮瞧爵犯猪瑱甆画瘝瘟益盛直睊着磌窱節类絛練缾者荒華蝹"),
  (64182, "襁覆視調諸請謁諾諭謹變贈輸遲醙鉶陼難靖韛響頋頻鬒龜𢡊𢡄𣏕㮝䀘䀹𥉉𥳐𧻓齃龎"), (64285, "י"),
  (64287, "ײעאדהכלםרת+ששששאאאבגדהוז"), (64312, "טיךכל"), (64318, "מ"), (64320, "נס"),
  (64323, "ףפ"), (64326, "צקרשתובכפ"),
  (64336, "ٱٱٻٻٻٻپپپپڀڀڀڀٺٺٺٺٿٿٿٿٹٹٹٹڤڤڤڤڦڦڦڦڄڄڄڄڃڃڃڃچچچچڇڇڇڇڍڍڌڌڎڎڈڈژژڑڑککککگگگگ"),
  (64406, "ڳڳڳڳڱڱڱڱںںڻڻڻڻەەہہہہھھھھےےےے"), (64467, "ڭڭڭڭۇۇۆۆۈۈ"), (64478, "ۋۋۅۅۉۉېېېېىى"),
  (64508, "یییی"), (64603, "ذرى      "), (64656, "ى"), (64729, "ه"), (64754, "ـــ"),
  (64828, "اا"), (65040, ",、。:;!?〖〗"), (65073, "—–__()\x7b\x7d〔〕【】《》〈〉「」『』﹅﹆[]    ___,、."),
  (65108, ";:?!—()\x7b\x7d〔〕#&*+-<>="), (65128, "\\$%@"), (65136, " ـ ﹳ "),
  (65142, " ـ ـ ـ ـ ـءااااووااييييااببببةةتتتتثثثثججججححححخخخخددذذررززسسسسششششصصص"),
  (65212, "صضضضضططططظظظظععععغغغغففففققققككككللللممممننننههههووىىيييي"),
  (65281, "!\"#$%&'()*+,-./0123456789:;<=>?@ABCDEFGHIJKLMNOPQRSTUVWXYZ[\\]^_`abcdef"),
  (65351, "ghijklmnopqrstuvwxyz\x7b|\x7d~⦅⦆。「」、・ヲァィゥェォャュョッーアイウエオカキクケコサシスセソタチツテトナニヌネノハヒフ"),
  (65421, "ヘホマミムメモヤユヨラリルレロワン"), (65440, "ᅠᄀᄁᆪᄂᆬᆭᄃᄄᄅᆰᆱᆲᆳᆴᆵᄚᄆᄇᄈᄡᄉᄊᄋᄌᄍᄎᄏᄐᄑᄒ"), (65474, "ᅡᅢᅣᅤᅥᅦ"),
  (65482, "ᅧᅨᅩᅪᅫᅬ"), (65490, "ᅭᅮᅯᅰᅱᅲ"), (65498, "ᅳᅴᅵ"), (65504, "¢£¬ ¦¥₩"), (65512, "│←↑→↓■○"),
  (67457, "ːˑæʙɓ"), (67463, "ʣꭦʥʤɖɗᶑɘɞʩɤɢɠʛħʜɧʄʪʫɬ𝼄ꞎɮ𝼅ʎ𝼆øɶɷqɺ𝼈ɽɾʀʨʦꭧʧʈⱱ"), (67506, "ʏʡʢʘǀǁǂ𝼊𝼞"),
  (69786, "𑂙𑂛𑂛"), (69803, "𑂥"), (119134, "𝅗𝅘𝅘𝅘𝅘𝅘𝅘"), (119227, "𝆹𝆺𝆹𝆺𝆹𝆺"),
  (119808, "ABCDEFGHIJKLMNOPQRSTUVWXYZabcdefghijklmnopqrstuvwxyzABCDEFGHIJKLMNOPQR"),
  (119878, "STUVWXYZabcdefg"),
  (119894, "ijklmnopqrstuvwxyzABCDEFGHIJKLMNOPQRSTUVWXYZabcdefghijklmnopqrstuvwxyz"),
  (119964, "A"), (119966, "CD"), (119970, "G"), (119973, "JK"), (119977, "NOPQ"),
  (119982, "STUVWXYZabcd"), (119995, "f"), (119997, "hijklmn"),
  (120005, "pqrstuvwxyzABCDEFGHIJKLMNOPQRSTUVWXYZabcdefghijklmnopqrstuvwxyzAB"),
  (120071, "DEFG"), (120077, "JKLMNOPQ"), (120086, "STUVWXY"),
  (120094, "abcdefghijklmnopqrstuvwxyzAB"), (120123, "DEFG"), (120128, "IJKLM"), (120134, "O"),
  (120138, "STUVWXY"),
  (120146, "abcdefghijklmnopqrstuvwxyzABCDEFGHIJKLMNOPQRSTUVWXYZabcdefghijklmnopqr"),
  (120216, "stuvwxyzABCDEFGHIJKLMNOPQRSTUVWXYZabcdefghijklmnopqrstuvwxyzABCDEFGHIJ"),
  (120286, "KLMNOPQRSTUVWXYZabcdefghijklmnopqrstuvwxyzABCDEFGHIJKLMNOPQRSTUVWXYZab"),
  (120356, "cdefghijklmnopqrstuvwxyzABCDEFGHIJKLMNOPQRSTUVWXYZabcdefghijklmnopqrst"),
  (120426, "uvwxyzABCDEFGHIJKLMNOPQRSTUVWXYZabcdefghijklmnopqrstuvwxyzıȷ"),
  (120488, "ΑΒΓΔΕΖΗΘΙΚΛΜΝΞΟΠΡΘΣΤΥΦΧΨΩ∇αβγδεζηθικλμνξοπρςστυφχψω∂εθκφρπΑΒΓΔΕΖΗΘΙΚΛΜ"),
  (120558, "ΝΞΟΠΡΘΣΤΥΦΧΨΩ∇αβγδεζηθικλμνξοπρςστυφχψω∂εθκφρπΑΒΓΔΕΖΗΘΙΚΛΜΝΞΟΠΡΘΣΤΥΦΧΨ"),
  (120628, "Ω∇αβγδεζηθικλμνξοπρςστυφχψω∂εθκφρπΑΒΓΔΕΖΗΘΙΚΛΜΝΞΟΠΡΘΣΤΥΦΧΨΩ∇αβγδεζηθικ"),
  (120698, "λμνξοπρςστυφχψω∂εθκφρπΑΒΓΔΕΖΗΘΙΚΛΜΝΞΟΠΡΘΣΤΥΦΧΨΩ∇αβγδεζηθικλμνξοπρςστυφ"),
  (120768, "χψω∂εθκφρπϜϝ"), (120782, "01234567890123456789012345678901234567890123456789"),
  (126464, "ابجد"), (126469, "وزحطيكلمنسعفصقرشتثخذضظغٮںڡٯ"), (126497, "بج"), (126500, "ه"),
  (126503, "ح"), (126505, "يكلمنسعفصق"), (126516, "شتثخ"), (126521, "ض"), (126523, "غ"),
  (126530, "ج"), (126535, "ح"), (126537, "ي"), (126539, "ل"), (126541, "نسع"), (126545, "صق"),
  (126548, "ش"), (126551, "خ"), (126553, "ض"), (126555, "غ"), (126557, "ں"), (126559, "ٯ"),
  (126561, "بج"), (126564, "ه"), (126567, "حطيك"), (126572, "منسعفصق"), (126580, "شتثخ"),
  (126585, "ضظغٮ"), (126590, "ڡ"), (126592, "ابجدهوزحطي"), (126603, "لمنسعفصقرشتثخذضظغ"),
  (126625, "بجد"), (126629, "وزحطي"), (126635, "لمنسعفصقرشتثخذضظغ"), (127275, "CR"),
  (127280, "ABCDEFGHIJKLMNOPQRSTUVWXYZ"), (127490, "サ"),
  (127504, "手字双テ二多解天交映無料前後再新初終生販声吹演投捕一三遊左中右指走打禁空合満有月申割営配"), (127568, "得可"),
  (130032, "0123456789"),
  (194560, "丽丸乁𠄢你侮侻倂偺備僧像㒞𠘺免兔兤具𠔜㒹內再𠕋冗冤仌冬况𩇟凵刃㓟刻剆割剷㔕勇勉勤勺包匆北卉卑博即卽卿卿卿𠨬灰及叟𠭣叫叱吆咞吸呈周咢哶唐啓啣善"),
  (194630, "善喙喫喳嗂圖嘆圗噑噴切壮城埴堍型堲報墬𡓤売壷夆多夢奢𡚨𡛪姬娛娧姘婦㛮㛼嬈嬾嬾𡧈寃寘寧寳𡬘寿将当尢㞁屠屮峀岍𡷤嵃𡷦嵮嵫嵼巡巢㠯巽帨帽幩㡢𢆃㡼庰"),
  (194700, "庳庶廊𪎒廾𢌱𢌱舁弢弢㣇𣊸𦇚形彫㣣徚忍志忹悁㤺㤜悔𢛔惇慈慌慎慌慺憎憲憤憯懞懲懶成戛扝抱拔捐𢬌挽拼捨掃揤𢯱搢揅掩㨮摩摾撝摷㩬敏敬𣀊旣書晉㬙暑㬈㫤"),
  (194770, "冒冕最暜肭䏙朗望朡杞杓𣏃㭉柺枅桒梅𣑭梎栟椔㮝楂榣槪檨𣚣櫛㰘次𣢧歔㱎歲殟殺殻𣪍𡴋𣫺汎𣲼沿泍汧洖派海流浩浸涅𣴞洴港湮㴳滋滇𣻑淹潮𣽞𣾎濆瀹瀞瀛㶖灊"),
  (194840, "災灷炭𠔥煅𤉣熜𤎫爨爵牐𤘈犀犕𤜵𤠔獺王㺬玥㺸㺸瑇瑜瑱璅瓊㼛甤𤰶甾𤲒異𢆟瘐𤾡𤾸𥁄㿼䀈直𥃳𥃲𥄙𥄳眞真真睊䀹瞋䁆䂖𥐝硎碌磌䃣𥘦祖𥚚𥛅福秫䄯穀穊穏𥥼𥪧"),
  (194910, "𥪧竮䈂𥮫篆築䈧𥲀糒䊠糨糣紀𥾆絣䌁緇縂繅䌴𦈨𦉇䍙𦋙罺𦌾羕翺者𦓚𦔣聠𦖨聰𣍟䏕育脃䐋脾媵𦞧𦞵𣎓𣎜舁舄辞䑫芑芋芝劳花芳芽苦𦬼若茝荣莭茣莽菧著荓菊菌菜"),
  (194980, "𦰶𦵫𦳕䔫蓱蓳蔖𧏊蕤𦼬䕝䕡𦾱𧃒䕫虐虜虧虩蚩蚈蜎蛢蝹蜨蝫螆䗗蟡蠁䗹衠衣𧙧裗裞䘵裺㒻𧢮𧥦䚾䛇誠諭變豕𧲨貫賁贛起𧼯𠠄跋趼跰𠣞軔輸𨗒𨗭邔郱鄑𨜮鄛鈸鋗鋘"),
  (195050, "鉼鏹鐕𨯺開䦕閷𨵷䧦雃嶲霣𩅅𩈚䩮䩶韠𩐊䪲𩒖頋頋頩𩖶飢䬳餩馧駂駾䯎𩬰鬒鱀鳽䳎䳭鵧𪃎䳸𪄅𪈎𪊑麻䵖黹黾鼅鼏鼖鼻𪘀")]

/-- Characters with a longer skeleton: a first code point, and the skeletons from there on. -/
def longSkeletons : List (Nat × List String) := [
  (188, ["1⁄4", "1⁄2", "3⁄4"]), (306, ["IJ", "ij"]), (319, ["L·", "l·"]), (329, ["ʼn"]),
  (452, ["DZ", "Dz", "dz", "LJ", "Lj", "lj", "NJ", "Nj", "nj"]), (497, ["DZ", "Dz", "dz"]),
  (1415, ["եւ"]), (1653, ["اٴ", "وٴ", "ۇٴ", "يٴ"]), (2507, ["ো", "ৌ"]), (2888, ["ୈ"]),
  (2891, ["ୋ", "ୌ"]), (2964, ["ஔ"]), (3018, ["ொ", "ோ", "ௌ"]), (3264, ["ೀ"]),
  (3271, ["ೇ", "ೈ"]), (3274, ["ೊ", "ೋ"]), (3402, ["ൊ", "ോ", "ൌ"]),
  (3548, ["ො", "ො", "ෞ"]), (3635, ["ํา"]), (3763, ["ໍາ"]), (3804, ["ຫນ", "ຫມ"]),
  (3907, ["གྷ"]), (3917, ["ཌྷ"]), (3922, ["དྷ"]), (3927, ["བྷ"]), (3932, ["ཛྷ"]), (3945, ["ཀྵ"]),
  (3987, ["ྒྷ"]), (3997, ["ྜྷ"]), (4002, ["ྡྷ"]), (4007, ["ྦྷ"]), (4012, ["ྫྷ"]), (4025, ["ྐྵ"]),
  (4134, ["ဦ"]), (6918, ["ᬆ"]), (6920, ["ᬈ"]), (6922, ["ᬊ"]), (6924, ["ᬌ"]), (6926, ["ᬎ"]),
  (6930, ["ᬒ"]), (6971, ["ᬻ"]), (6973, ["ᬽ"]), (6976, ["ᭀ", "ᭁ"]), (6979, ["ᭃ"]),
  (7834, ["aʾ"]), (8229, ["..", "..."]), (8243, ["′′", "′′′"]), (8246, ["‵‵", "‵‵‵"]),
  (8252, ["!!"]), (8263, ["??", "?!", "!?"]), (8279, ["′′′′"]), (8360, ["Rs"]),
  (8448, ["a/c", "a/s"]), (8451, ["°C"]), (8453, ["c/o", "c/u"]), (8457, ["°F"]), (8470, ["No"]),
  (8480, ["SM", "TEL", "TM"]), (8507, ["FAX"]),
  (8528, ["1⁄7", "1⁄9", "1⁄10", "1⁄3", "2⁄3", "1⁄5", "2⁄5", "3⁄5", "4⁄5", "1⁄6", "5⁄6", "1⁄8"]),
  (8540, ["3⁄8", "5⁄8", "7⁄8", "1⁄"]), (8545, ["II", "III", "IV"]),
  (8549, ["VI", "VII", "VIII", "IX"]), (8554, ["XI", "XII"]), (8561, ["ii", "iii", "iv"]),
  (8565, ["vi", "vii", "viii", "ix"]), (8570, ["xi", "xii"]), (8585, ["0⁄3"]),
  (8748, ["∫∫", "∫∫∫"]), (8751, ["∮∮", "∮∮∮"]),
  (9321, ["10", "11", "12", "13", "14", "15", "16", "17", "18", "19", "20", "(1)", "(2)"]),
  (9334, ["(3)", "(4)", "(5)", "(6)", "(7)", "(8)", "(9)", "(10)", "(11)", "(12)", "(13)"]),
  (9345, ["(14)", "(15)", "(16)", "(17)", "(18)", "(19)", "(20)", "1.", "2.", "3.", "4."]),
  (9356, ["5.", "6.", "7.", "8.", "9.", "10.", "11.", "12.", "13.", "14.", "15.", "16.", "17."]),
  (9369, ["18.", "19.", "20.", "(a)", "(b)", "(c)", "(d)", "(e)", "(f)", "(g)", "(h)", "(i)"]),
  (9381, ["(j)", "(k)", "(l)", "(m)", "(n)", "(o)", "(p)", "(q)", "(r)", "(s)", "(t)", "(u)"]),
  (9393, ["(v)", "(w)", "(x)", "(y)", "(z)"]), (10764, ["∫∫∫∫"]), (10868, ["::=", "==", "==="]),
  (12447, ["より"]), (12543, ["コト"]),
  (12800, ["(ᄀ)", "(ᄂ)", "(ᄃ)", "(ᄅ)", "(ᄆ)", "(ᄇ)", "(ᄉ)", "(ᄋ)", "(ᄌ)", "(ᄎ)", "(ᄏ)", "(ᄐ)"]),
  (12812, ["(ᄑ)", "(ᄒ)", "(가)", "(나)", "(다)", "(라)", "(마)", "(바)", "(사)", "(아)", "(자)"]),
  (12823, ["(차)", "(카)", "(타)", "(파)", "(하)", "(주)", "(오전)", "(오후)"]),
  (12832, ["(一)", "(二)", "(三)", "(四)", "(五)", "(六)", "(七)", "(八)", "(九)", "(十)", "(月)", "(火)"]),
  (12844, ["(水)", "(木)", "(金)", "(土)", "(日)", "(株)", "(有)", "(社)", "(名)", "(特)", "(財)", "(祝)"]),
  (12856, ["(労)", "(代)", "(呼)", "(学)", "(監)", "(企)", "(資)", "(協)", "(祭)", "(休)", "(自)", "(至)"]),
  (12880, ["PTE", "21", "22", "23", "24", "25", "26", "27", "28", "29", "30", "31", "32", "33"]),
  (12894, ["34", "35"]),
  (12910, ["가", "나", "다", "라", "마", "바", "사", "아", "자", "차", "카", "타", "파", "하"]),
  (12924, ["참고", "주의", "우"]),
  (12977, ["36", "37", "38", "39", "40", "41", "42", "43", "44", "45", "46", "47", "48", "49"]),
  (12991, ["50", "1月", "2月", "3月", "4月", "5月", "6月", "7月", "8月", "9月", "10月", "11月", "12月"]),
  (13004, ["Hg", "erg", "eV", "LTD"]),
  (13055, ["令和", "アハート", "アルファ", "アンヘア", "アール", "イニンク", "インチ", "ウォン", "エスクート", "エーカー", "オンス"]),
  (13066, ["オーム", "カイリ", "カラット", "カロリー", "カロン", "カンマ", "キカ", "キニー", "キュリー", "キルター", "キロ", "キロクラム"]),
  (13078, ["キロメートル", "キロワット", "クラム", "クラムトン", "クルセイロ", "クローネ", "ケース", "コルナ", "コーホ", "サイクル"]),
  (13088, ["サンチーム", "シリンク", "センチ", "セント", "タース", "テシ", "トル", "トン", "ナノ", "ノット", "ハイツ", "ハーセント"]),
  (13100, ["ハーツ", "ハーレル", "ヒアストル", "ヒクル", "ヒコ", "ヒル", "ファラット", "フィート", "フッシェル", "フラン", "ヘクタール"]),
  (13111, ["ヘソ", "ヘニヒ", "ヘルツ", "ヘンス", "ヘーシ", "ヘータ", "ホイント", "ホルト", "ホン", "ホント", "ホール", "ホーン"]),
  (13123, ["マイクロ", "マイル", "マッハ", "マルク", "マンション", "ミクロン", "ミリ", "ミリハール", "メカ", "メカトン", "メートル"]),
  (13134, ["ヤート", "ヤール", "ユアン", "リットル", "リラ", "ルヒー", "ルーフル", "レム", "レントケン", "ワット", "0点", "1点"]),
  (13146, ["2点", "3点", "4点", "5点", "6点", "7点", "8点", "9点", "10点", "11点", "12点", "13点", "14点"]),
  (13159, ["15点", "16点", "17点", "18点", "19点", "20点", "21点", "22点", "23点", "24点", "hPa", "da"]),
  (13171, ["AU", "bar", "oV", "pc", "dm", "dm2", "dm3", "IU", "平成", "昭和", "大正", "明治", "株式会社"]),
  (13184, ["pA", "nA", "μA", "mA", "kA", "KB", "MB", "GB", "cal", "kcal", "pF", "nF", "μF"]),
  (13197, ["μg", "mg", "kg", "Hz", "kHz", "MHz", "GHz", "THz", "μl", "ml", "dl", "kl", "fm"]),
  (13210, ["nm", "μm", "mm", "cm", "km", "mm2", "cm2", "m2", "km2", "mm3", "cm3", "m3", "km3"]),
  (13223, ["m∕s", "m∕s2", "Pa", "kPa", "MPa", "GPa", "rad", "rad∕s", "rad∕s2", "ps", "ns"]),
  (13234, ["μs", "ms", "pV", "nV", "μV", "mV", "kV", "MV", "pW", "nW", "μW", "mW", "kW", "MW"]),
  (13248, ["kΩ", "MΩ", "a.m.", "Bq", "cc", "cd", "C∕kg", "Co.", "dB", "Gy", "ha", "HP", "in"]),
  (13261, ["KK", "KM", "kt", "lm", "ln", "log", "lx", "mb", "mil", "mol", "PH", "p.m.", "PPM"]),
  (13274, ["PR", "sr", "Sv", "Wb", "V∕m", "A∕m", "1日", "2日", "3日", "4日", "5日", "6日", "7日"]),
  (13287, ["8日", "9日", "10日", "11日", "12日", "13日", "14日", "15日", "16日", "17日", "18日", "19日"]),
  (13299, ["20日", "21日", "22日", "23日", "24日", "25日", "26日", "27日", "28日", "29日", "30日", "31日"]),
  (13311, ["gal"]), (64256, ["ff", "fi", "fl", "ffi", "ffl", "st", "st"]),
  (64275, ["մն", "մե", "մի", "վն", "մխ"]), (64335, ["אל"]), (64477, ["ۇٴ"]),
  (64490, ["يا", "يا", "يە", "يە", "يو", "يو", "يۇ", "يۇ", "يۆ", "يۆ", "يۈ", "يۈ", "يې", "يې"]),
  (64504, ["يې", "يى", "يى", "يى"]),
  (64512, ["يج", "يح", "يم", "يى", "يي", "بج", "بح", "بخ", "بم", "بى", "بي", "تج", "تح", "تخ"]),
  (64526, ["تم", "تى", "تي", "ثج", "ثم", "ثى", "ثي", "جح", "جم", "حج", "حم", "خج", "خح", "خم"]),
  (64540, ["سج", "سح", "سخ", "سم", "صح", "صم", "ضج", "ضح", "ضخ", "ضم", "طح", "طم", "ظم", "عج"]),
  (64554, ["عم", "غج", "غم", "فج", "فح", "فخ", "فم", "فى", "في", "قح", "قم", "قى", "قي", "كا"]),
  (64568, ["كج", "كح", "كخ", "كل", "كم", "كى", "كي", "لج", "لح", "لخ", "لم", "لى", "لي", "مج"]),
  (64582, ["مح", "مخ", "مم", "مى", "مي", "نج", "نح", "نخ", "نم", "نى", "ني", "هج", "هم", "هى"]),
  (64596, ["هي", "يج", "يح", "يخ", "يم", "يى", "يي"]),
  (64612, ["ير", "يز", "يم", "ين", "يى", "يي", "بر", "بز", "بم", "بن", "بى", "بي", "تر", "تز"]),
  (64626, ["تم", "تن", "تى", "تي", "ثر", "ثز", "ثم", "ثن", "ثى", "ثي", "فى", "في", "قى", "قي"]),
  (64640, ["كا", "كل", "كم", "كى", "كي", "لم", "لى", "لي", "ما", "مم", "نر", "نز", "نم", "نن"]),
  (64654, ["نى", "ني"]),
  (64657, ["ير", "يز", "يم", "ين", "يى", "يي", "يج", "يح", "يخ", "يم", "يه", "بج", "بح", "بخ"]),
  (64671, ["بم", "به", "تج", "تح", "تخ", "تم", "ته", "ثم", "جح", "جم", "حج", "حم", "خج", "خم"]),
  (64685, ["سج", "سح", "سخ", "سم", "صح", "صخ", "صم", "ضج", "ضح", "ضخ", "ضم", "طح", "ظم", "عج"]),
  (64699, ["عم", "غج", "غم", "فج", "فح", "فخ", "فم", "قح", "قم", "كج", "كح", "كخ", "كل", "كم"]),
  (64713, ["لج", "لح", "لخ", "لم", "له", "مج", "مح", "مخ", "مم", "نج", "نح", "نخ", "نم", "نه"]),
  (64727, ["هج", "هم"]),
  (64730, ["يج", "يح", "يخ", "يم", "يه", "يم", "يه", "بم", "به", "تم", "ته", "ثم", "ثه", "سم"]),
  (64744, ["سه", "شم", "شه", "كل", "كم", "لم", "نم", "نه", "يم", "يه"]),
  (64757, ["طى", "طي", "عى", "عي", "غى", "غي", "سى", "سي", "شى", "شي", "حى", "حي", "جى", "جي"]),
  (64771, ["خى", "خي", "صى", "صي", "ضى", "ضي", "شج", "شح", "شخ", "شم", "شر", "سر", "صر", "ضر"]),
  (64785, ["طى", "طي", "عى", "عي", "غى", "غي", "سى", "سي", "شى", "شي", "حى", "حي", "جى", "جي"]),
  (64799, ["خى", "خي", "صى", "صي", "ضى", "ضي", "شج", "شح", "شخ", "شم", "شر", "سر", "صر", "ضر"]),
  (64813, ["شج", "شح", "شخ", "شم", "سه", "شه", "طم", "سج", "سح", "سخ", "شج", "شح", "شخ", "طم"]),
  (64827, ["ظم"]),
  (64848, ["تجم", "تحج", "تحج", "تحم", "تخم", "تمج", "تمح", "تمخ", "جمح", "جمح", "حمي", "حمى"]),
  (64860, ["سحج", "سجح", "سجى", "سمح", "سمح", "سمج", "سمم", "سمم", "صحح", "صحح", "صمم", "شحم"]),
  (64872, ["شحم", "شجي", "شمخ", "شمخ", "شمم", "شمم", "ضحى", "ضخم", "ضخم", "طمح", "طمح", "طمم"]),
  (64884, ["طمي", "عجم", "عمم", "عمم", "عمى", "غمم", "غمي", "غمى", "فخم", "فخم", "قمح", "قمم"]),
  (64896, ["لحم", "لحي", "لحى", "لجج", "لجج", "لخم", "لخم", "لمح", "لمح", "محج", "محم", "محي"]),
  (64908, ["مجح", "مجم", "مخج", "مخم"]),
  (64914, ["مجخ", "همج", "همم", "نحم", "نحى", "نجم", "نجم", "نجى", "نمي", "نمى", "يمم", "يمم"]),
  (64926, ["بخي", "تجي", "تجى", "تخي", "تخى", "تمي", "تمى", "جمي", "جحى", "جمى", "سخى", "صحي"]),
  (64938, ["شحي", "ضحي", "لجي", "لمي", "يحي", "يجي", "يمي", "ممي", "قمي", "نحي", "قمح", "لحم"]),
  (64950, ["عمي", "كمي", "نجح", "مخي", "لجم", "كمم", "لجم", "نجح", "جحي", "حجي", "مجي", "فمي"]),
  (64962, ["بحي", "كمم", "عجم", "صمم", "سخي", "نجي"]),
  (65008, ["صلے", "قلے", "الله", "اكبر", "محمد", "صلعم", "رسول", "عليه", "وسلم", "صلى",
    "صلى الله عليه وسلم"]),
  (65019, ["جل جلاله", "ریال"]), (65049, ["..."]), (65072, [".."]),
  (65269, ["لا", "لا", "لا", "لا", "لا", "لا", "لا", "لا"]), (69934, ["𑄮", "𑄯"]),
  (70475, ["𑍋", "𑍌"]), (70843, ["𑒻", "𑒼"]), (70846, ["𑒾"]), (71098, ["𑖺", "𑖻"]),
  (71992, ["𑤸"]), (127232, ["0.", "0,", "1,", "2,", "3,", "4,", "5,", "6,", "7,", "8,", "9,"]),
  (127248, ["(A)", "(B)", "(C)", "(D)", "(E)", "(F)", "(G)", "(H)", "(I)", "(J)", "(K)", "(L)"]),
  (127260, ["(M)", "(N)", "(O)", "(P)", "(Q)", "(R)", "(S)", "(T)", "(U)", "(V)", "(W)", "(X)"]),
  (127272, ["(Y)", "(Z)", "〔S〕"]), (127277, ["CD", "WZ"]),
  (127306, ["HV", "MV", "SD", "SS", "PPV", "WC"]), (127338, ["MC", "MD", "MR"]),
  (127376, ["DJ"]), (127488, ["ほか", "ココ"]),
  (127552, ["〔本〕", "〔三〕", "〔二〕", "〔安〕", "〔点〕", "〔打〕", "〔盗〕", "〔勝〕", "〔敗〕"])]

/-! ## The skeleton -/

/-- The letters of a Hangul syllable, given by its place among the syllables: a leading
consonant, a vowel and perhaps a trailing consonant. -/
def hangulLetters (place : Nat) : Text :=
  let lead := Char.ofNat (0x1100 + place / 588)
  let vowel := Char.ofNat (0x1161 + place % 588 / 28)
  let trail := place % 28
  if trail = 0 then [lead, vowel] else [lead, vowel, Char.ofNat (0x11A7 + trail)]

/-- The skeleton of a character that is neither a mark nor a Hangul syllable. -/
def tabledSkeleton (c : Char) : Text :=
  let n := c.toNat
  let single := singleSkeletons.findSome? fun row =>
    if row.1 ≤ n then row.2.toList[n - row.1]? else none
  match single with
  | some image => [image]
  | none =>
    match longSkeletons.findSome? fun row => if row.1 ≤ n then row.2[n - row.1]? else none with
    | some image => image.toList
    | none => [c]

def skeletonChar (c : Char) : Text :=
  if c.toNat < 128 then [c]
  else if 0xAC00 ≤ c.toNat && c.toNat ≤ 0xD7A3 then hangulLetters (c.toNat - 0xAC00)
  else if markRuns.contains c.toNat then []
  else tabledSkeleton c

def skeleton (t : Text) : Text := t.flatMap skeletonChar

end Orthography.Unicode
