import RethBsc.Rust.Bytes

/-!
# The seeded generator

`src/consensus/parlia/go_rng.rs` is Go's `math/rand` source: an additive lagged Fibonacci
generator over a register of 607 words, and the Fisher-Yates shuffle that back-off times use.

* The register is a vector of length 607, so that `tap` and `feed` are the only indices to watch.
* `int63n` and `int31n` draw until a draw is not biased.  The loops take fuel; out of fuel is
  `none`, which says nothing about the loop of the source.
-/

namespace RethBsc.GoRng

def rngLen : Nat := 607
def rngTap : Nat := 273
def rngMask : UInt64 := (1 : UInt64) <<< 63 - 1
def int32Max : Int64 := (1 : Int64) <<< 31 - 1

def neg (n : Nat) : Int64 := -Int64.ofNat n

/-- The values that a seeded register is mixed with. -/
def rngCooked : List Int64 :=
  [neg 4181792142133755926, neg 4576982950128230565, 1395769623340756751, 5333664234075297259,
    neg 6347679516498800754, 9033628115061424579, 7143218595135194537, 4812947590706362721,
    7937252194349799378, 5307299880338848416, 8209348851763925077, neg 7107630437535961764,
    4593015457530856296, 8140875735541888011, neg 5903942795589686782, neg 603556388664454774,
    neg 7496297993371156308, 113108499721038619, 4569519971459345583, neg 4160538177779461077,
    neg 6835753265595711384, neg 6507240692498089696, 6559392774825876886, 7650093201692370310,
    7684323884043752161, neg 8965504200858744418, neg 2629915517445760644, 271327514973697897,
    neg 6433985589514657524, 1065192797246149621, 3344507881999356393, neg 4763574095074709175,
    7465081662728599889, 1014950805555097187, neg 4773931307508785033, neg 5742262670416273165,
    2418672789110888383, 5796562887576294778, 4484266064449540171, 3738982361971787048,
    neg 4699774852342421385, 10530508058128498, neg 589538253572429690, neg 6598062107225984180,
    8660405965245884302, 10162832508971942, neg 2682657355892958417, 7031802312784620857,
    6240911277345944669, 831864355460801054, neg 1218937899312622917, 2116287251661052151,
    2202309800992166967, 9161020366945053561, 4069299552407763864, 4936383537992622449,
    457351505131524928, neg 8881176990926596454, neg 6375600354038175299, neg 7155351920868399290,
    4368649989588021065, 887231587095185257, neg 3659780529968199312, neg 2407146836602825512,
    5616972787034086048, neg 751562733459939242, 1686575021641186857, neg 5177887698780513806,
    neg 4979215821652996885, neg 1375154703071198421, 5632136521049761902, neg 8390088894796940536,
    neg 193645528485698615, neg 5979788902190688516, neg 4907000935050298721,
    neg 285522056888777828, neg 2776431630044341707, 1679342092332374735, 6050638460742422078,
    neg 2229851317345194226, neg 1582494184340482199, 5881353426285907985, 812786550756860885,
    4541845584483343330, neg 6497901820577766722, 4980675660146853729, neg 4012602956251539747,
    neg 329088717864244987, neg 2896929232104691526, 1495812843684243920, neg 2153620458055647789,
    7370257291860230865, neg 2466442761497833547, 4706794511633873654, neg 1398851569026877145,
    8549875090542453214, neg 9189721207376179652, neg 7894453601103453165, 7297902601803624459,
    1011190183918857495, neg 6985347000036920864, 5147159997473910359, neg 8326859945294252826,
    2659470849286379941, 6097729358393448602, neg 7491646050550022124, neg 5117116194870963097,
    neg 896216826133240300, neg 745860416168701406, 5803876044675762232, neg 787954255994554146,
    neg 3234519180203704564, neg 4507534739750823898, neg 1657200065590290694, 505808562678895611,
    neg 4153273856159712438, neg 8381261370078904295, 572156825025677802, 1791881013492340891,
    3393267094866038768, neg 5444650186382539299, 2352769483186201278, neg 7930912453007408350,
    neg 325464993179687389, neg 3441562999710612272, neg 6489413242825283295, 5092019688680754699,
    neg 227247482082248967, 4234737173186232084, 5027558287275472836, 4635198586344772304,
    neg 536033143587636457, 5907508150730407386, neg 8438615781380831356, 972392927514829904,
    neg 3801314342046600696, neg 4064951393885491917, neg 174840358296132583, 2407211146698877100,
    neg 1640089820333676239, 3940796514530962282, neg 5882197405809569433, 3095313889586102949,
    neg 1818050141166537098, 5832080132947175283, 7890064875145919662, 8184139210799583195,
    neg 8073512175445549678, neg 7758774793014564506, neg 4581724029666783935, 3516491885471466898,
    neg 8267083515063118116, 6657089965014657519, 5220884358887979358, 1796677326474620641,
    5340761970648932916, 1147977171614181568, 5066037465548252321, 2574765911837859848,
    1085848279845204775, neg 5873264506986385449, 6116438694366558490, 2107701075971293812,
    neg 7420077970933506541, 2469478054175558874, neg 1855128755834809824, neg 5431463669011098282,
    neg 9038325065738319171, neg 6966276280341336160, 7217693971077460129, neg 8314322083775271549,
    7196649268545224266, neg 3585711691453906209, neg 5267827091426810625, 8057528650917418961,
    neg 5084103596553648165, neg 2601445448341207749, neg 7850010900052094367, 6527366231383600011,
    3507654575162700890, 9202058512774729859, 1954818376891585542, neg 2582991129724600103,
    8299563319178235687, neg 5321504681635821435, 7046310742295574065, neg 2376176645520785576,
    neg 7650733936335907755, 8850422670118399721, 3631909142291992901, 5158881091950831288,
    neg 6340413719511654215, 4763258931815816403, 6280052734341785344, neg 4979582628649810958,
    2043464728020827976, neg 2678071570832690343, 4562580375758598164, 5495451168795427352,
    neg 7485059175264624713, 553004618757816492, 6895160632757959823, neg 989748114590090637,
    7139506338801360852, neg 672480814466784139, 5535668688139305547, 2430933853350256242,
    neg 3821430778991574732, neg 1063731997747047009, neg 3065878205254005442, 7632066283658143750,
    6308328381617103346, 3681878764086140361, 3289686137190109749, 6587997200611086848,
    244714774258135476, neg 5143583659437639708, 8090302575944624335, 2945117363431356361,
    neg 8359047641006034763, 3009039260312620700, neg 793344576772241777, 401084700045993341,
    neg 1968749590416080887, 4707864159563588614, neg 3583123505891281857, neg 3240864324164777915,
    neg 5908273794572565703, neg 3719524458082857382, neg 5281400669679581926, 8118566580304798074,
    3839261274019871296, 7062410411742090847, neg 8481991033874568140, 6027994129690250817,
    neg 6725542042704711878, neg 2971981702428546974, neg 7854441788951256975, 8809096399316380241,
    6492004350391900708, 2462145737463489636, neg 8818543617934476634, neg 5070345602623085213,
    neg 8961586321599299868, neg 3758656652254704451, neg 8630661632476012791, 6764129236657751224,
    neg 709716318315418359, neg 3403028373052861600, neg 8838073512170985897,
    neg 3999237033416576341, neg 2920240395515973663, neg 2073249475545404416, 368107899140673753,
    neg 6108185202296464250, neg 6307735683270494757, 4782583894627718279, 6718292300699989587,
    8387085186914375220, 3387513132024756289, 4654329375432538231, neg 292704475491394206,
    neg 3848998599978456535, 7623042350483453954, 7725442901813263321, 9186225467561587250,
    neg 5132344747257272453, neg 6865740430362196008, 2530936820058611833, 1636551876240043639,
    neg 3658707362519810009, 1452244145334316253, neg 7161729655835084979, neg 7943791770359481772,
    9108481583171221009, neg 3200093350120725999, 5007630032676973346, 2153168792952589781,
    6720334534964750538, neg 3181825545719981703, 3433922409283786309, 2285479922797300912,
    3110614940896576130, neg 2856812446131932915, neg 3804580617188639299, 7163298419643543757,
    4891138053923696990, 580618510277907015, 1684034065251686769, 4429514767357295841,
    neg 8893025458299325803, neg 8103734041042601133, 7177515271653460134, 4589042248470800257,
    neg 1530083407795771245, 143607045258444228, 246994305896273627, neg 8356954712051676521,
    6473547110565816071, 3092379936208876896, 2058427839513754051, neg 4089587328327907870,
    8785882556301281247, neg 3074039370013608197, neg 637529855400303673, 6137678347805511274,
    neg 7152924852417805802, 5708223427705576541, neg 3223714144396531304, 4358391411789012426,
    325123008708389849, 6837621693887290924, 4843721905315627004, neg 3212720814705499393,
    neg 3825019837890901156, 4602025990114250980, 1044646352569048800, 9106614159853161675,
    neg 8394115921626182539, neg 4304087667751778808, 2681532557646850893, 3681559472488511871,
    neg 3915372517896561773, neg 2889241648411946534, neg 6564663803938238204,
    neg 8060058171802589521, 581945337509520675, 3648778920718647903, neg 4799698790548231394,
    neg 7602572252857820065, 220828013409515943, neg 1072987336855386047, 4287360518296753003,
    neg 4633371852008891965, 5513660857261085186, neg 2258542936462001533, neg 8744380348503999773,
    8746140185685648781, 228500091334420247, 1356187007457302238, 3019253992034194581,
    3152601605678500003, neg 8793219284148773595, 5559581553696971176, 4916432985369275664,
    neg 8559797105120221417, neg 5802598197927043732, 2868348622579915573, neg 7224052902810357288,
    neg 5894682518218493085, 2587672709781371173, neg 7706116723325376475, 3092343956317362483,
    neg 5561119517847711700, 972445599196498113, neg 1558506600978816441, 1708913533482282562,
    neg 2305554874185907314, neg 6005743014309462908, neg 6653329009633068701,
    neg 483583197311151195, 2488075924621352812, neg 4529369641467339140, neg 4663743555056261452,
    2997203966153298104, 1282559373026354493, 240113143146674385, 8665713329246516443,
    628141331766346752, neg 4651421219668005332, neg 7750560848702540400, 7596648026010355826,
    neg 3132152619100351065, 7834161864828164065, 7103445518877254909, 4390861237357459201,
    neg 4780718172614204074, neg 319889632007444440, 622261699494173647, neg 3186110786557562560,
    neg 8718967088789066690, neg 1948156510637662747, neg 8212195255998774408,
    neg 7028621931231314745, 2623071828615234808, neg 4066058308780939700, neg 5484966924888173764,
    neg 6683604512778046238, neg 6756087640505506466, 5256026990536851868, 7841086888628396109,
    6640857538655893162, neg 8021284697816458310, neg 7109857044414059830, neg 1689021141511844405,
    neg 4298087301956291063, neg 4077748265377282003, neg 998231156719803476, 2719520354384050532,
    9132346697815513771, 4332154495710163773, neg 2085582442760428892, 6994721091344268833,
    neg 2556143461985726874, neg 8567931991128098309, 59934747298466858, neg 3098398008776739403,
    neg 265597256199410390, 2332206071942466437, neg 7522315324568406181, 3154897383618636503,
    neg 7585605855467168281, neg 6762850759087199275, 197309393502684135, neg 8579694182469508493,
    2543179307861934850, 4350769010207485119, neg 4468719947444108136, neg 7207776534213261296,
    neg 1224312577878317200, 4287946071480840813, 8362686366770308971, 6486469209321732151,
    neg 5605644191012979782, neg 1669018511020473564, 4450022655153542367, neg 7618176296641240059,
    neg 3896357471549267421, neg 4596796223304447488, neg 6531150016257070659,
    neg 8982326463137525940, neg 4125325062227681798, neg 1306489741394045544,
    neg 8338554946557245229, 5329160409530630596, 7790979528857726136, 4955070238059373407,
    neg 4304834761432101506, neg 6215295852904371179, 3007769226071157901, neg 6753025801236972788,
    8928702772696731736, 7856187920214445904, neg 4748497451462800923, 7900176660600710914,
    neg 7082800908938549136, neg 6797926979589575837, neg 6737316883512927978, 4186670094382025798,
    1883939007446035042, neg 414705992779907823, 3734134241178479257, 4065968871360089196,
    6953124200385847784, neg 7917685222115876751, neg 7585632937840318161, neg 5567246375906782599,
    neg 5256612402221608788, 3106378204088556331, neg 2894472214076325998, 4565385105440252958,
    1979884289539493806, neg 6891578849933910383, 3783206694208922581, 8464961209802336085,
    2843963751609577687, 3030678195484896323, neg 4429654462759003204, 4459239494808162889,
    402587895800087237, 8057891408711167515, 4541888170938985079, 1042662272908816815,
    neg 3666068979732206850, 2647678726283249984, 2144477441549833761, neg 3417019821499388721,
    neg 2105601033380872185, 5916597177708541638, neg 8760774321402454447, 8833658097025758785,
    5970273481425315300, 563813119381731307, neg 6455022486202078793, 1598828206250873866,
    neg 4016978389451217698, neg 2988328551145513985, neg 6071154634840136312, 8469693267274066490,
    125672920241807416, neg 3912292412830714870, neg 2559617104544284221, neg 486523741806024092,
    neg 4735332261862713930, 5923302823487327109, neg 9082480245771672572, neg 1808429243461201518,
    7990420780896957397, 4317817392807076702, 3625184369705367340, neg 6482649271566653105,
    neg 3480272027152017464, neg 3225473396345736649, neg 368878695502291645,
    neg 3981164001421868007, neg 8522033136963788610, 7609280429197514109, 3020985755112334161,
    neg 2572049329799262942, 2635195723621160615, 5144520864246028816, neg 8188285521126945980,
    1567242097116389047, 8172389260191636581, neg 2885551685425483535, neg 7060359469858316883,
    neg 6480181133964513127, neg 7317004403633452381, 6011544915663598137, 5932255307352610768,
    2241128460406315459, neg 8327867140638080220, 3094483003111372717, 4583857460292963101,
    9079887171656594975, neg 384082854924064405, neg 3460631649611717935, 4225072055348026230,
    neg 7385151438465742745, 3801620336801580414, neg 399845416774701952, neg 7446754431269675473,
    7899055018877642622, 5421679761463003041, 5521102963086275121, neg 4975092593295409910,
    8735487530905098534, neg 7462844945281082830, neg 2080886987197029914, neg 1000715163927557685,
    neg 4253840471931071485, neg 5828896094657903328, 6424174453260338141, 359248545074932887,
    neg 5949720754023045210, neg 2426265837057637212, 3030918217665093212, neg 9077771202237461772,
    neg 3186796180789149575, 740416251634527158, neg 2142944401404840226, 6951781370868335478,
    399922722363687927, neg 8928469722407522623, neg 1378421100515597285, neg 8343051178220066766,
    neg 3030716356046100229, neg 8811767350470065420, 9026808440365124461, 6440783557497587732,
    4615674634722404292, 539897290441580544, 2096238225866883852, 8751955639408182687,
    neg 7316147128802486205, 7381039757301768559, 6157238513393239656, neg 1473377804940618233,
    8629571604380892756, 5280433031239081479, 7101611890139813254, 2479018537985767835,
    7169176924412769570, neg 1281305539061572506, neg 7865612307799218120, 2278447439451174845,
    3625338785743880657, 6477479539006708521, 8976185375579272206, neg 3712000482142939688,
    1326024180520890843, 7537449876596048829, 5464680203499696154, 3189671183162196045,
    6346751753565857109, neg 8982212049534145501, neg 6127578587196093755, neg 245039190118465649,
    neg 6320577374581628592, 7208698530190629697, 7276901792339343736, neg 7490986807540332668,
    4133292154170828382, 2918308698224194548, neg 7703910638917631350, neg 3929437324238184044,
    neg 4300543082831323144, neg 6344160503358350167, 5896236396443472108, neg 758328221503023383,
    neg 1894351639983151068, neg 307900319840287220, neg 6278469401177312761,
    neg 2171292963361310674, 8382142935188824023, 9103922860780351547, 4152330101494654406]

/-- `x[n+1] = 48271 * x[n] mod (2^31 - 1)`, by Schrage's decomposition in `i32`. -/
def seedRand (x : Int32) : Int32 :=
  let hi := x / 44488
  let lo := x % 44488
  let x := 48271 * lo - 3399 * hi
  if x < 0 then x + 2147483647 else x

structure RngSource where
  tap : Nat
  feed : Nat
  vec : Vector Int64 607

namespace RngSource

/-- One turn of the seeding loop at register index `i`. -/
def seedStep (state : Int32 × Vector Int64 607) (i : Nat) : Int32 × Vector Int64 607 :=
  let x := seedRand state.1
  let u := x.toInt64 <<< 40
  let x := seedRand x
  let u := u ^^^ (x.toInt64 <<< 20)
  let x := seedRand x
  let u := u ^^^ x.toInt64
  let u := u ^^^ rngCooked.getD i 0
  (x, state.2.setIfInBounds i u)

/-- The seed reduced to the range of `seedRand`. -/
def reduceSeed (seed : Int64) : Int32 :=
  let seed := seed % int32Max
  let seed := if seed < 0 then seed + int32Max else seed
  let seed := if seed = 0 then 89482311 else seed
  seed.toInt32

/-- `RngSource::new`: 20 turns of `seedRand` alone, then one for each word of the register. -/
def new (seed : Int64) : RngSource where
  tap := 0
  feed := rngLen - rngTap
  vec := ((List.range rngLen).foldl seedStep
    ((List.range 20).foldl (fun x _ => seedRand x) (reduceSeed seed), Vector.replicate 607 0)).2

def uint64 (rng : RngSource) : UInt64 × RngSource :=
  let tap := (rng.tap + rngLen - 1) % rngLen
  let feed := (rng.feed + rngLen - 1) % rngLen
  let x := rng.vec.getD feed 0 + rng.vec.getD tap 0
  (x.toUInt64, ⟨tap, feed, rng.vec.setIfInBounds feed x⟩)

def int63 (rng : RngSource) : Int64 × RngSource :=
  let (x, rng) := rng.uint64
  ((x &&& rngMask).toInt64, rng)

def uint32 (rng : RngSource) : UInt32 × RngSource :=
  let (x, rng) := rng.int63
  ((x >>> 31).toUInt64.toUInt32, rng)

/-- Draws until one is at most `max`. -/
def int63Upto (fuel : Nat) (rng : RngSource) (max : Int64) : Option (Int64 × RngSource) :=
  match fuel with
  | 0 => none
  | fuel + 1 =>
    let (v, rng) := rng.int63
    if v > max then int63Upto fuel rng max else some (v, rng)

/-- Panics, as `.panic`, unless `n` is positive. -/
def int63n (fuel : Nat) (rng : RngSource) (n : Int64) :
    Rust.Outcome Unit (Int64 × RngSource) :=
  if ¬ 0 < n then .panic
  else if n &&& (n - 1) = 0 then
    let (v, rng) := rng.int63
    .ok (v &&& (n - 1), rng)
  else
    let max := Int64.minValue - 1 - Int64.minValue % n
    match int63Upto fuel rng max with
    | none => .err ()
    | some (v, rng) => .ok (v % n, rng)

/-- Draws until the low half of the product with `n` reaches the threshold. -/
def int31nLoop (fuel : Nat) (rng : RngSource) (n : Int32) (thresh : UInt32) (prod : UInt64) :
    Option (UInt64 × RngSource) :=
  if prod.toUInt32 < thresh then
    match fuel with
    | 0 => none
    | fuel + 1 =>
      let (v, rng) := rng.uint32
      int31nLoop fuel rng n thresh (v.toUInt64 * n.toInt64.toUInt64)
  else some (prod, rng)

def int31n (fuel : Nat) (rng : RngSource) (n : Int32) : Option (Int32 × RngSource) := do
  let (v, rng) := rng.uint32
  let prod := v.toUInt64 * n.toInt64.toUInt64
  let (prod, rng) ←
    if prod.toUInt32 < n.toUInt32 then
      int31nLoop fuel rng n ((-n).toUInt32 % n.toUInt32) prod
    else some (prod, rng)
  some ((prod >>> 32).toUInt32.toInt32, rng)

end RngSource

/-! ## The shuffle -/

variable {α : Type}

/-- `slice::swap`, which panics on an index out of bounds. -/
def swap (l : List α) (i j : Nat) : Rust.Outcome Unit (List α) :=
  match l[i]?, l[j]? with
  | some a, some b => .ok ((l.set i b).set j a)
  | _, _ => .panic

/-- The Fisher-Yates loops from index `i` down.  Out of fuel is `.err ()`. -/
def shuffleFrom (fuel : Nat) (rng : RngSource) (l : List α) : Nat → Rust.Outcome Unit (List α)
  | 0 => .ok l
  | i + 1 =>
    if i + 1 > 2 ^ 31 - 1 - 1 then do
      let (j, rng) ← rng.int63n fuel (Int64.ofNat (i + 2))
      let l ← swap l (i + 1) j.toUInt64.toNat
      shuffleFrom fuel rng l i
    else do
      let (j, rng) ← Rust.Outcome.okOr () (rng.int31n fuel (Int32.ofNat (i + 2)))
      let l ← swap l (i + 1) j.toInt64.toUInt64.toNat
      shuffleFrom fuel rng l i

def shuffle (fuel : Nat) (rng : RngSource) (l : List α) : Rust.Outcome Unit (List α) :=
  if l = [] then .ok l else shuffleFrom fuel rng l (l.length - 1)

end RethBsc.GoRng
