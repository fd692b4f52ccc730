/-!
# Variants of single characters

Some characters are variants of another one: letters in mathematical alphabets, wide and narrow
forms, superscripts, and ideographs with more than one code.
-/

namespace ContextLint.Text

/-- Runs of variants of a run of characters: the first variant, how many, and the first character.
-/
def variantRuns : List (Nat × Nat × Nat) :=
  [(0x1D33, 8, 0x47), (0x313A, 6, 0x11B0), (0x3145, 10, 0x1109), (0x314F, 21, 0x1161),
   (0xFF10, 10, 0x30), (0xFF21, 26, 0x41), (0xFF41, 26, 0x61), (0xFF85, 6, 0x30CA),
   (0xFF96, 6, 0x30E8), (0xFFAA, 6, 0x11B0), (0xFFB5, 10, 0x1109), (0xFFC2, 6, 0x1161),
   (0xFFCA, 6, 0x1167), (0xFFD2, 6, 0x116D), (0x1D400, 26, 0x41), (0x1D41A, 26, 0x61),
   (0x1D434, 26, 0x41), (0x1D44E, 7, 0x61), (0x1D456, 18, 0x69), (0x1D468, 26, 0x41),
   (0x1D482, 26, 0x61), (0x1D4AE, 8, 0x53), (0x1D4BD, 7, 0x68), (0x1D4C5, 11, 0x70),
   (0x1D4D0, 26, 0x41), (0x1D4EA, 26, 0x61), (0x1D50D, 8, 0x4A), (0x1D516, 7, 0x53),
   (0x1D51E, 26, 0x61), (0x1D54A, 7, 0x53), (0x1D552, 26, 0x61), (0x1D56C, 26, 0x41),
   (0x1D586, 26, 0x61), (0x1D5A0, 26, 0x41), (0x1D5BA, 26, 0x61), (0x1D5D4, 26, 0x41),
   (0x1D5EE, 26, 0x61), (0x1D608, 26, 0x41), (0x1D622, 26, 0x61), (0x1D63C, 26, 0x41),
   (0x1D656, 26, 0x61), (0x1D670, 26, 0x41), (0x1D68A, 26, 0x61), (0x1D6A8, 17, 0x391),
   (0x1D6BA, 7, 0x3A3), (0x1D6C2, 25, 0x3B1), (0x1D6E2, 17, 0x391), (0x1D6F4, 7, 0x3A3),
   (0x1D6FC, 25, 0x3B1), (0x1D71C, 17, 0x391), (0x1D72E, 7, 0x3A3), (0x1D736, 25, 0x3B1),
   (0x1D756, 17, 0x391), (0x1D768, 7, 0x3A3), (0x1D770, 25, 0x3B1), (0x1D790, 17, 0x391),
   (0x1D7A2, 7, 0x3A3), (0x1D7AA, 25, 0x3B1), (0x1D7CE, 10, 0x30), (0x1D7D8, 10, 0x30),
   (0x1D7E2, 10, 0x30), (0x1D7EC, 10, 0x30), (0x1D7F6, 10, 0x30), (0x1FBF0, 10, 0x30)]

/-- Variants outside the ideographs, one behind the other: the first, and the characters of all. -/
def letterVariants : List (Nat × String) :=
  [(0xAA, "a"), (0xB5, "μ"), (0xBA, "o"), (0x17F, "s"), (0x2B0, "hɦjrɹɻʁwy"), (0x2E0, "ɣlsxʕ"),
   (0x340, "\u0300\u0301"), (0x343, "\u0313"), (0x374, "ʹ"), (0x387, "·"), (0x3D0, "βθΥ"),
   (0x3D5, "φπ"), (0x3F0, "κρς"), (0x3F4, "Θε"), (0x3F9, "Σ"), (0x10FC, "ნ"), (0x1D2C, "AÆB"),
   (0x1D30, "DEƎ"), (0x1D3C, "OȢPRTUWaɐɑᴂbdeəɛɜg"), (0x1D4F, "kmŋoɔᴖᴗptuᴝɯvᴥβγδφχiruvβγρφχ"),
   (0x1D78, "н"), (0x1D9B, "ɒcɕðɜfɟɡɥɨɩɪᵻʝɭᶅʟɱɰɲɳɴɵɸʂʃƫʉʊᴜʋʌzʐʑʒθ"), (0x1FBE, "ι"), (0x2071, "i"),
   (0x207F, "n"), (0x2090, "aeoxəhklmnpst"), (0x2102, "C"), (0x2107, "Ɛ"), (0x210A, "gHHHhħIILl"),
   (0x2115, "N"), (0x2119, "PQRRR"), (0x2124, "Z"), (0x2126, "Ω"), (0x2128, "Z"), (0x212A, "K"),
   (0x212C, "BC"), (0x212F, "eEF"), (0x2133, "Moאבגדi"), (0x213C, "πγΓΠ"),
   (0x2145, "Ddeij"), (0x2160, "I"), (0x2164, "V"), (0x2169, "X"), (0x216C, "LCDMi"), (0x2174, "v"),
   (0x2179, "x"), (0x217C, "lcdm"), (0x2C7C, "jV"), (0x2D6F, "ⵡ"), (0x3038, "十卄卅"),
   (0x3131, "ᄀᄁᆪᄂᆬᆭᄃᄄᄅ"), (0x3140, "ᄚᄆᄇᄈᄡ"),
   (0x3164, "ᅠᄔᄕᇇᇈᇌᇎᇓᇗᇙᄜᇝᇟᄝᄞᄠᄢᄣᄧᄩᄫᄬᄭᄮᄯᄲᄶᅀᅇᅌᇱᇲᅗᅘᅙᆄᆅᆈᆑᆒᆔᆞᆡ"), (0xA69C, "ъь"),
   (0xA770, "ꝯ"), (0xA7F2, "CFQ"), (0xA7F8, "Ħœ"), (0xAB5C, "ꜧꬷɫꭒ"), (0xAB69, "ʍ"),
   (0xFB20, "עאדהכלםרת"),
   (0xFB50, "ٱٱٻٻٻٻپپپپڀڀڀ"),
   (0xFB5D, "ڀٺٺٺٺٿٿٿٿٹٹٹٹ"),
   (0xFB6A, "ڤڤڤڤڦڦڦڦڄڄڄڄڃ"),
   (0xFB77, "ڃڃڃچچچچڇڇڇڇڍڍ"),
   (0xFB84, "ڌڌڎڎڈڈژژڑڑککک"),
   (0xFB91, "کگگگگڳڳڳڳڱڱڱڱ"),
   (0xFB9E, "ںںڻڻڻڻ"),
   (0xFBA6, "ہہہہھھھھےے"),
   (0xFBD3, "ڭڭڭڭۇۇۆۆۈۈ"),
   (0xFBDE, "ۋۋۅۅۉۉېېېېىى"),
   (0xFBFC, "یییی"), (0xFE33, "__"), (0xFE4D, "___"), (0xFE80, "ء"),
   (0xFE8D, "ااببببةةتتتتث"),
   (0xFE9A, "ثثثججججححححخخ"),
   (0xFEA7, "خخددذذررززسسس"),
   (0xFEB4, "سششششصصصصضضضض"),
   (0xFEC1, "ططططظظظظععععغ"),
   (0xFECE, "غغغففففققققكك"),
   (0xFEDB, "ككللللممممننن"),
   (0xFEE8, "نههههووىىيييي"),
   (0xFF3F, "_"), (0xFF66, "ヲァィゥェォャュョッーアイウエオカキクケコサシスセソタチツテト"),
   (0xFF8B, "ヒフヘホマミムメモヤユ"), (0xFF9C, "ワン\u3099\u309Aᅠᄀᄁᆪᄂᆬᆭᄃᄄᄅ"),
   (0xFFB0, "ᄚᄆᄇᄈᄡ"), (0xFFDA, "ᅳᅴᅵ"), (0x10781, "ːˑæʙɓ"),
   (0x10787, "ʣꭦʥʤɖɗᶑɘɞʩɤɢɠʛħʜɧʄʪʫɬ𝼄ꞎɮ𝼅ʎ𝼆øɶɷqɺ𝼈ɽɾʀʨʦꭧʧʈⱱ"), (0x107B2, "ʏʡʢʘǀǁǂ𝼊𝼞"), (0x1D49C, "A"),
   (0x1D49E, "CD"), (0x1D4A2, "G"), (0x1D4A5, "JK"), (0x1D4A9, "NOPQ"), (0x1D4B6, "abcd"),
   (0x1D4BB, "f"), (0x1D504, "AB"), (0x1D507, "DEFG"), (0x1D538, "AB"), (0x1D53B, "DEFG"),
   (0x1D540, "IJKLM"), (0x1D546, "O"), (0x1D6A4, "ıȷ"), (0x1D6B9, "Θ"), (0x1D6DC, "εθκφρπ"),
   (0x1D6F3, "Θ"), (0x1D716, "εθκφρπ"), (0x1D72D, "Θ"), (0x1D750, "εθκφρπ"), (0x1D767, "Θ"),
   (0x1D78A, "εθκφρπ"), (0x1D7A1, "Θ"), (0x1D7C4, "εθκφρπϜϝ"),
   (0x1EE00, "ابجد"),
   (0x1EE05, "وزحطيكلمنسعفص"),
   (0x1EE12, "قرشتثخذضظغٮںڡ"),
   (0x1EE1F, "ٯ"), (0x1EE21, "بج"), (0x1EE24, "ه"), (0x1EE27, "ح"),
   (0x1EE29, "يكلمنسعفصق"),
   (0x1EE34, "شتثخ"), (0x1EE39, "ض"), (0x1EE3B, "غ"),
   (0x1EE42, "ج"), (0x1EE47, "ح"), (0x1EE49, "ي"), (0x1EE4B, "ل"),
   (0x1EE4D, "نسع"), (0x1EE51, "صق"), (0x1EE54, "ش"),
   (0x1EE57, "خ"), (0x1EE59, "ض"), (0x1EE5B, "غ"), (0x1EE5D, "ں"),
   (0x1EE5F, "ٯ"), (0x1EE61, "بج"), (0x1EE64, "ه"),
   (0x1EE67, "حطيك"), (0x1EE6C, "منسعفصق"),
   (0x1EE74, "شتثخ"), (0x1EE79, "ضظغٮ"),
   (0x1EE7E, "ڡ"), (0x1EE80, "ابجدهوزحطي"),
   (0x1EE8B, "لمنسعفصقرشتثخ"),
   (0x1EE98, "ذضظغ"), (0x1EEA1, "بجد"),
   (0x1EEA5, "وزحطي"),
   (0x1EEAB, "لمنسعفصقرشتثخ"),
   (0x1EEB8, "ذضظغ")]

/-- Variants of ideographs, one behind the other: the first, and the characters of all. -/
def ideographVariants : List (Nat × String) :=
  [(0xF900, "豈更車賈滑串句龜龜契金喇奈懶癩羅蘿螺裸邏樂洛烙珞落酪駱亂卵欄爛蘭鸞嵐濫藍襤拉臘蠟廊"),
   (0xF929, "朗浪狼郎來冷勞擄櫓爐盧老蘆虜路露魯鷺碌祿綠菉錄鹿論壟弄籠聾牢磊賂雷壘屢樓淚漏累縷陋"),
   (0xF952, "勒肋凜凌稜綾菱陵讀拏樂諾丹寧怒率異北磻便復不泌數索參塞省葉說殺辰沈拾若掠略亮兩凉梁"),
   (0xF97B, "糧良諒量勵呂女廬旅濾礪閭驪麗黎力曆歷轢年憐戀撚漣煉璉秊練聯輦蓮連鍊列劣咽烈裂說廉念"),
   (0xF9A4, "捻殮簾獵令囹寧嶺怜玲瑩羚聆鈴零靈領例禮醴隸惡了僚寮尿料樂燎療蓼遼龍暈阮劉杻柳流溜琉"),
   (0xF9CD, "留硫紐類六戮陸倫崙淪輪律慄栗率隆利吏履易李梨泥理痢罹裏裡里離匿溺吝燐璘藺隣鱗麟林淋"),
   (0xF9F6, "臨立笠粒狀炙識什茶刺切度拓糖宅洞暴輻行降見廓兀嗀"), (0xFA10, "塚"), (0xFA12, "晴"),
   (0xFA15, "凞猪益礼神祥福靖精羽"), (0xFA20, "蘒"), (0xFA22, "諸"), (0xFA25, "逸都"),
   (0xFA2A, "飯飼館鶴郞隷侮僧免勉勤卑喝嘆器塀墨層屮悔慨憎懲敏既暑梅海渚漢煮爫琢碑社祉祈祐祖祝禍"),
   (0xFA53, "禎穀突節練縉繁署者臭艹艹著褐視謁謹賓贈辶逸難響頻恵𤋮舘"),
   (0xFA70, "並况全侀充冀勇勺喝啕喙嗢塚墳奄奔婢嬨廒廙彩徭惘慎愈憎慠懲戴揄搜摒敖晴朗望杖歹殺流滛"),
   (0xFA99, "滋漢瀞煮瞧爵犯猪瑱甆画瘝瘟益盛直睊着磌窱節类絛練缾者荒華蝹襁覆視調諸請謁諾諭謹變贈"),
   (0xFAC2, "輸遲醙鉶陼難靖韛響頋頻鬒龜𢡊𢡄𣏕㮝䀘䀹𥉉𥳐𧻓齃龎"),
   (0x2F800, "丽丸乁𠄢你侮侻倂偺備僧像㒞𠘺免兔兤具𠔜㒹內再𠕋冗冤仌冬况𩇟凵刃㓟刻剆割剷㔕勇勉勤勺"),
   (0x2F829, "包匆北卉卑博即卽卿卿卿𠨬灰及叟𠭣叫叱吆咞吸呈周咢哶唐啓啣善善喙喫喳嗂圖嘆圗噑噴切壮"),
   (0x2F852, "城埴堍型堲報墬𡓤売壷夆多夢奢𡚨𡛪姬娛娧姘婦㛮㛼嬈嬾嬾𡧈寃寘寧寳𡬘寿将当尢㞁屠屮峀岍"),
   (0x2F87B, "𡷤嵃𡷦嵮嵫嵼巡巢㠯巽帨帽幩㡢𢆃㡼庰庳庶廊𪎒廾𢌱𢌱舁弢弢㣇𣊸𦇚形彫㣣徚忍志忹悁㤺㤜悔"),
   (0x2F8A4, "𢛔惇慈慌慎慌慺憎憲憤憯懞懲懶成戛扝抱拔捐𢬌挽拼捨掃揤𢯱搢揅掩㨮摩摾撝摷㩬敏敬𣀊旣書"),
   (0x2F8CD, "晉㬙暑㬈㫤冒冕最暜肭䏙朗望朡杞杓𣏃㭉柺枅桒梅𣑭梎栟椔㮝楂榣槪檨𣚣櫛㰘次𣢧歔㱎歲殟殺"),
   (0x2F8F6, "殻𣪍𡴋𣫺汎𣲼沿泍汧洖派海流浩浸涅𣴞洴港湮㴳滋滇𣻑淹潮𣽞𣾎濆瀹瀞瀛㶖灊災灷炭𠔥煅𤉣熜"),
   (0x2F91F, "𤎫爨爵牐𤘈犀犕𤜵𤠔獺王㺬玥㺸㺸瑇瑜瑱璅瓊㼛甤𤰶甾𤲒異𢆟瘐𤾡𤾸𥁄㿼䀈直𥃳𥃲𥄙𥄳眞真真"),
   (0x2F948, "睊䀹瞋䁆䂖𥐝硎碌磌䃣𥘦祖𥚚𥛅福秫䄯穀穊穏𥥼𥪧𥪧竮䈂𥮫篆築䈧𥲀糒䊠糨糣紀𥾆絣䌁緇縂繅"),
   (0x2F971, "䌴𦈨𦉇䍙𦋙罺𦌾羕翺者𦓚𦔣聠𦖨聰𣍟䏕育脃䐋脾媵𦞧𦞵𣎓𣎜舁舄辞䑫芑芋芝劳花芳芽苦𦬼若茝"),
   (0x2F99A, "荣莭茣莽菧著荓菊菌菜𦰶𦵫𦳕䔫蓱蓳蔖𧏊蕤𦼬䕝䕡𦾱𧃒䕫虐虜虧虩蚩蚈蜎蛢蝹蜨蝫螆䗗蟡蠁䗹"),
   (0x2F9C3, "衠衣𧙧裗裞䘵裺㒻𧢮𧥦䚾䛇誠諭變豕𧲨貫賁贛起𧼯𠠄跋趼跰𠣞軔輸𨗒𨗭邔郱鄑𨜮鄛鈸鋗鋘鉼鏹"),
   (0x2F9EC, "鐕𨯺開䦕閷𨵷䧦雃嶲霣𩅅𩈚䩮䩶韠𩐊䪲𩒖頋頋頩𩖶飢䬳餩馧駂駾䯎𩬰鬒鱀鳽䳎䳭鵧𪃎䳸𪄅𪈎𪊑"),
   (0x2FA15, "麻䵖黹黾鼅鼏鼖鼻𪘀")]

end ContextLint.Text
